import RemoteSettings.BatchReply
import RemoteSettings.Endpoint
import RemoteSettings.Locks.Table
import RemoteSettings.Request
import RemoteSettings.State.Reduce

/-!
# Remote operations

A remote operation sends one request and commits what comes of it to the state.  Apart from the
fetch of the groups it holds a lock meanwhile: a shared one to fetch, an exclusive one to save.
A save also holds up a saving flag.

## Main definitions

* `Remote` — the operations.
* `Remote.lock?`, `Remote.flag?`, `Remote.request` — what an operation needs and sends.
* `Remote.commit` — the actions that a reply leads to, and the operation's result.
-/

namespace RemoteSettings

/-- An operation that asks the service. -/
inductive Remote
  | fetchGroups
  | fetchSettings (group : String)
  | fetchSetting (group id : String)
  | saveSetting (group id : String) (value : Value)
  | saveBatch (group : String) (updates : List Update)
  deriving Inhabited

/-- A saving flag: of a setting, or of a group as a whole. -/
abbrev Flag := String × Option String

namespace Remote

/-- The lock that is held during the operation. -/
def lock? : Remote → Option (Scope × LockMode)
  | fetchGroups => none
  | fetchSettings group => some (.ofGroup group, .shared)
  | fetchSetting group id => some (.ofSetting group id, .shared)
  | saveSetting group id _ => some (.ofSetting group id, .exclusive)
  | saveBatch group _ => some (.ofGroup group, .exclusive)

/-- The flag that is up during the operation. -/
def flag? : Remote → Option Flag
  | saveSetting group id _ => some (group, some id)
  | saveBatch group _ => some (group, none)
  | _ => none

/-- The request that is sent. -/
def request (e : Endpoints) : Remote → Request
  | fetchGroups => .get e.groups
  | fetchSettings group => .get (e.group group)
  | fetchSetting group id => .get (e.setting group id)
  | saveSetting group id value =>
    .put (e.setting group id) (.object [("value", value.toJson)])
  | saveBatch group updates => .post (e.batch group) (Updates.batchBody updates)

/-- Reads the JSON of a reply. -/
def decodeReply {α : Type} (read : Json → Except Complaint α) (reply : Reply) :
    Except Failure α :=
  reply.bind fun j => (read j).mapError .ofComplaint

/-- The actions that the reply to a batch leads to: an error for each setting that was refused, and
the settings that were saved. -/
def commitBatch (group : String) (reply : BatchReply) : List Action :=
  reply.failed.map (fun r => .setError group (some r.id) (some (.rejected none r.rejection)))
    ++ if reply.updated.isEmpty then [] else [.receiveSettings group reply.updated]

/-- The result of a batch: the settings that were saved, unless some were refused. -/
def batchResult (reply : BatchReply) : Except Failure (List Setting) :=
  if reply.failed.isEmpty then .ok reply.updated else .error (.partialBatch reply.failed)

/-- The actions that a reply leads to, and the operation's result: the settings that were saved.  A
failure is recorded where the operation is about; but that a part of a batch was refused is never an
error of the whole group. -/
def commit : Remote → Reply → List Action × Except Failure (List Setting)
  | fetchGroups, reply =>
    match decodeReply (Decode.list Group.decode) reply with
    | .ok groups => ([.receiveGroups groups], .ok [])
    | .error f => ([], .error f)
  | fetchSettings group, reply =>
    match decodeReply (Decode.list Setting.decode) reply with
    | .ok settings => ([.receiveSettings group settings], .ok [])
    | .error f => ([.setError group none (some f)], .error f)
  | fetchSetting group id, reply =>
    match decodeReply Setting.decode reply with
    | .ok setting => ([.receiveSettings group [setting]], .ok [])
    | .error f => ([.setError group (some id) (some f)], .error f)
  | saveSetting group id _, reply =>
    match decodeReply Setting.decode reply with
    | .ok setting => ([.receiveSettings group [setting]], .ok [setting])
    | .error f => ([.setError group (some id) (some f)], .error f)
  | saveBatch group _, reply =>
    match decodeReply BatchReply.decode reply with
    | .ok r => (commitBatch group r, batchResult r)
    | .error f => (if f.isPartial then [] else [.setError group none (some f)], .error f)

end Remote

end RemoteSettings
