import RemoteSettings.Json.Decode

/-!
# Failures

## Main definitions

* `Rejection` — the service's own account of what it refused.
* `RejectedSetting` — a setting that a batch save was refused for.
* `Failure` — how an operation on the settings can fail.
* `Failure.message` — the words for a failure.
-/

namespace RemoteSettings

/-- The service's own account of what it refused. -/
structure Rejection where
  code : String := ""
  message : String := ""
  data : Option Json := none
  deriving Inhabited

namespace Rejection

/-- How a rejection is read. -/
def record : Record Rejection where
  name := "ApiError"
  fields := ["code", "message", "data"]
  blank := {}
  set r
    | "code", j => do return { r with code := ← Decode.text j }
    | "message", j => do return { r with message := ← Decode.text j }
    | "data", j => do return { r with data := ← Decode.nullable pure j }
    | _, _ => return r

/-- Reads a rejection. -/
def decode (j : Json) : Except Complaint Rejection := record.decode j

/-- Writes a rejection. -/
def toJson (r : Rejection) : Json :=
  .object <|
    [("code", .string r.code), ("message", .string r.message)]
      ++ Json.optionalField "data" (fun j => j) r.data

/-- A rejection in one line. -/
def text (r : Rejection) : String := r.message ++ " (" ++ r.code ++ ")"

/-- Equality of rejections. -/
def equals (a b : Rejection) : Bool :=
  a.code == b.code && a.message == b.message && Json.equalOptional Json.equals a.data b.data

instance : BEq Rejection := ⟨equals⟩

end Rejection

/-- A setting that a batch save was refused for. -/
structure RejectedSetting where
  id : String
  rejection : Rejection
  deriving Inhabited

namespace RejectedSetting

/-- How a rejected setting is read. -/
def record : Record RejectedSetting where
  name := "SettingFailure"
  fields := ["id", "error"]
  required := ["id", "error"]
  blank := ⟨"", {}⟩
  set r
    | "id", j => do return { r with id := ← Decode.text j }
    | "error", j => do return { r with rejection := ← Rejection.decode j }
    | _, _ => return r

/-- Reads a rejected setting. -/
def decode (j : Json) : Except Complaint RejectedSetting := record.decode j

/-- Writes a rejected setting. -/
def toJson (r : RejectedSetting) : Json :=
  .object [("id", .string r.id), ("error", r.rejection.toJson)]

/-- Equality of rejected settings. -/
def equals (a b : RejectedSetting) : Bool := a.id == b.id && a.rejection == b.rejection

instance : BEq RejectedSetting := ⟨equals⟩

end RejectedSetting

/-- How an operation on the settings can fail. -/
inductive Failure
  /-- The service refused, and says why. -/
  | rejected (status : Option Nat) (rejection : Rejection)
  /-- The service refused in a form that is not its own; the answer's beginning is kept. -/
  | http (status : Nat) (preview : String)
  /-- No answer came. -/
  | transport (message : String)
  /-- No answer came in time. -/
  | timeout (after : Duration)
  /-- The answer is not what was asked for. -/
  | decode (message : String)
  /-- The operation makes no sense; nothing was sent. -/
  | validation (message : String)
  /-- Some settings of a batch were refused. -/
  | partialBatch (settings : List RejectedSetting)
  /-- The configuration makes no sense. -/
  | config (message : String)
  deriving Inhabited

namespace Failure

/-- The words for a failure. -/
def message : Failure → String
  | .rejected _ rejection => rejection.text
  | .http status preview => "HTTP " ++ toString status ++ ": " ++ preview
  | .transport message => "Transport error: " ++ message
  | .timeout after => "Request timed out after " ++ after.brief
  | .decode message => "Failed to decode response: " ++ message
  | .validation message => "Validation error: " ++ message
  | .partialBatch _ => "Failed to update some settings"
  | .config message => "Invalid configuration: " ++ message

/-- The settings that a batch was refused for, if it was refused for some only. -/
def rejectedSettings? : Failure → Option (List RejectedSetting)
  | .partialBatch settings => some settings
  | _ => none

/-- Whether a part of a batch succeeded. -/
def isPartial (f : Failure) : Bool := f.rejectedSettings?.isSome

/-- The service's own account, if there is one. -/
def rejection? : Failure → Option Rejection
  | .rejected _ rejection => some rejection
  | _ => none

/-- The failure that an unfit answer is. -/
def ofComplaint (c : Complaint) : Failure := .decode c.message

/-- Equality of failures. -/
def equals : Failure → Failure → Bool
  | .rejected s a, .rejected t b => s == t && a == b
  | .http s a, .http t b => s == t && a == b
  | .transport a, .transport b => a == b
  | .timeout a, .timeout b => a == b
  | .decode a, .decode b => a == b
  | .validation a, .validation b => a == b
  | .partialBatch a, .partialBatch b => a == b
  | .config a, .config b => a == b
  | _, _ => false

instance : BEq Failure := ⟨equals⟩

end Failure

end RemoteSettings
