import RemoteSettings.Proofs.BatchReply
import RemoteSettings.Proofs.Command
import RemoteSettings.Proofs.Json.Printing
import RemoteSettings.Proofs.State.Independence
import RemoteSettings.Proofs.WireFormat

/-!
# What is printed can be typed

Values are printed as JSON and typed as JSON or, if that is no JSON, as plain text.  A printed value
that could not be read would silently come back as a text.  It never does: the printed text is read
as the value, alone or after an id and an equals sign, and so a value that has just been printed is
no change.

## Main definitions

* `Json.Printable` — JSON that is read again once it is written.
* `Value.Typed` — what is typed for a value.

## Main results

* `Json.Printable.typed`, `Json.typed_of_parse` — a value is typed as it is printed, and so is JSON
  that was read.
* `Command.printed_can_be_typed` — **what commands print can be typed, and changes nothing.**
-/

namespace RemoteSettings

/-! ### Values as they are printed and typed -/

/-- JSON that is read again once it is written: no object names a field twice, arrays and objects
nest at most 127 deep, and the binary numbers in it are read from their texts. -/
structure Json.Printable (j : Json) : Prop where
  proper : j.proper = true
  depth_le : j.depth ≤ 127
  reals : ∀ x ∈ j.reals, parse (String.ofList x.text) = .ok (.number (.real x))

/-- JSON that was read is read again once it is written, if the binary numbers in it are. -/
theorem Json.Printable.of_parse {s : String} {j : Json} (h : Json.parse s = .ok j)
    (hreals : ∀ x ∈ j.reals, Json.parse (String.ofList x.text) = .ok (.number (.real x))) :
    j.Printable := by
  obtain ⟨t, -, ht⟩ := Json.parse_eq_ok_iff.mp h
  exact ⟨Json.proper_of_read h, Grammar.Tree.depth_le_of_json? ht, hreals⟩

/-- A text is typed for a value: alone it is read as the value, and after an id and an equals sign
as an update to the value. -/
structure Value.Typed (v : Value) (text : String) : Prop where
  value : Value.parse text = v
  assignment : ∀ id, id ≠ "" → '=' ∉ id.toList →
    Assignment.parse (id ++ "=" ++ text) = some ⟨id, v⟩

/-- A value is typed as it is printed. -/
theorem Json.Printable.typed {j : Json} (h : j.Printable) :
    (Value.ofJson j).Typed (Value.ofJson j).toJson.text := by
  have hparse : Value.parse (Value.ofJson j).toJson.text = .ofJson j := by
    rw [Value.toJson_ofJson, Value.parse, Json.parse?,
      Json.parse_text h.proper h.depth_le h.reals]
    rfl
  refine ⟨hparse, fun id hne hid => Assignment.parse_eq_some_iff.mpr ?_⟩
  exact ⟨_, rfl, hid, hne, hparse.symm⟩

/-- JSON that was read is typed as it is printed, if the binary numbers in it can be read again. -/
theorem Json.typed_of_parse {s : String} {j : Json} (h : parse s = .ok j)
    (hreals : ∀ x ∈ j.reals, parse (String.ofList x.text) = .ok (.number (.real x))) :
    (Value.ofJson j).Typed (Value.ofJson j).toJson.text :=
  (Printable.of_parse h hreals).typed

/-- A value in the form in which JSON is read is typed as it is printed. -/
theorem Value.Plain.typed {v : Value} (hv : v.Plain) (h : v.toJson.Printable) :
    v.Typed v.toJson.text := by
  have htyped := h.typed
  rwa [hv.ofJson_toJson] at htyped

/-! ### What has been fetched -/

/-- A setting that is reported has a value in the form in which JSON is read. -/
theorem Remote.plain_of_decodeReply {reply : Reply} {x : Setting}
    (h : decodeReply Setting.decode reply = .ok x) : x.value.Plain := by
  obtain ⟨j, -, hj⟩ := bind_eq_ok h
  exact (Setting.clean_of_decode (mapError_eq_ok hj)).value

theorem Remote.plain_of_decodeReply_list {reply : Reply} {xs : List Setting}
    (h : decodeReply (Decode.list Setting.decode) reply = .ok xs) :
    ∀ x ∈ xs, x.value.Plain := by
  obtain ⟨j, -, hj⟩ := bind_eq_ok h
  have hdecode := mapError_eq_ok hj
  cases j with
  | array items =>
    have hitems := BatchReply.forall₂_of_mapM hdecode
    clear hdecode hj h
    induction hitems with
    | nil => exact fun x hx => nomatch hx
    | cons hx _ ih => exact List.forall_mem_cons.mpr ⟨(Setting.clean_of_decode hx).value, ih⟩
  | _ => cases hdecode

namespace State

/-- Settings that are added to none are kept by their ids, each in the place of the first. -/
theorem contents_addSettings_nil (now slot : Nat) (xs : List Setting) :
    Memo.contents (addSettings now slot xs []) = Keyed.ofPairs (xs.map fun x => (x.id, x)) := by
  have hfold : ∀ (xs : List Setting) slot (m : Keyed String (Versioned Setting)),
      Memo.contents (addSettings now slot xs m)
        = (xs.map fun x => (x.id, x)).foldl (fun m p => m.put p.1 p.2) (Memo.contents m) := by
    intro xs
    induction xs with
    | nil => exact fun _ _ => rfl
    | cons x xs ih =>
      intro slot m
      rw [addSettings, ih, Memo.contents_put]
      rfl
  exact hfold xs slot []

/-- The value of a setting that has been reported by itself. -/
theorem value?_of_report (now : Nat) (g : String) (x : Setting) :
    (State.empty.reduce now (.receiveSettings g [x])).value? g x.id false = some x.value := by
  have hsetting := (Unedited.of_report now g [x]).setting x.id
  rw [findRev?_cons, if_pos (beq_self_eq_true x.id)] at hsetting
  have hvalue := congrArg (Option.map Setting.value) hsetting
  rw [view] at hvalue
  rw [value?, if_neg Bool.false_ne_true]
  simpa using hvalue

end State

namespace Store

variable {name : String} {e : Endpoints} {tr : Transport} {reply : Reply} {g : String}
  {xs : List Setting}

/-- A call to a new store that fetches settings and reads them. -/
theorem perform_read {call : Call} {wanted : Followup} (hwanted : call.wanted? = some wanted)
    (hreply : tr [] (wanted.key.remote.request e) = some reply) {result : List Setting}
    (hcommit : wanted.key.remote.commit reply = ([.receiveSettings g xs], .ok result))
    {answer : Answer}
    (hfollow : ∀ v : Store, v.state = State.empty.reduce 1 (.receiveSettings g xs) →
      ∃ u : Store, u.desk = v.desk ∧ u.answers = v.answers ∧
        v.follow 0 (.ok ()) wanted = u.finish 0 (.ok answer)) :
    ((fresh name e).perform tr call).1 = some (.ok answer) := by
  have htidy : (fresh name e).Tidy := tidy_after name e []
  obtain ⟨v, hbegin, hclear, -, -, htasks, hgiven, hstate, -⟩ :=
    exists_follow_of_wanted (clear_fresh name e) hwanted rfl hreply
  rw [hcommit] at hbegin hstate
  have hreduced : v.state = State.empty.reduce 1 (.receiveSettings g xs) :=
    hstate.trans (htidy.dispatch_state (.receiveSettings g xs))
  obtain ⟨u, hdesk, hanswers, hu⟩ := hfollow v hreduced
  have hagreed : (fresh name e).answers.Agreed := agreed_after name e []
  rw [perform_of_finish hagreed (clear_fresh name e).line (hbegin.trans hu)
    (hdesk ▸ hclear) (by rw [hanswers, htasks]) (by rw [hanswers, hgiven])]

/-- The value of a setting that is reported under its id. -/
theorem perform_resolveValue (answer : List Request → Request → Reply) {x : Setting}
    (hx : Remote.decodeReply Setting.decode (answer [] (.get (e.setting g x.id))) = .ok x) :
    ((fresh name e).perform (.served answer) (.resolveValue g x.id false)).1
      = some (.ok (.value (some x.value))) := by
  have hcommit : (Remote.fetchSetting g x.id).commit (answer [] (.get (e.setting g x.id)))
      = ([.receiveSettings g [x]], .ok []) := by rw [Remote.commit, hx]
  have hwanted : (Call.resolveValue g x.id false).wanted? = some (.value g x.id false) := rfl
  refine perform_read hwanted rfl hcommit fun v hv => ⟨v, rfl, rfl, ?_⟩
  rw [← State.value?_of_report 1 g x, ← hv]
  rfl

/-- The settings of a group as they are reported. -/
theorem perform_resolveSettings (answer : List Request → Request → Reply)
    (hxs : Remote.decodeReply (Decode.list Setting.decode) (answer [] (.get (e.group g)))
      = .ok xs) :
    ((fresh name e).perform (.served answer) (.resolveSettings g false)).1
      = some (.ok (.settings (State.addSettings 1 0 xs []))) := by
  have hcommit : (Remote.fetchSettings g).commit (answer [] (.get (e.group g)))
      = ([.receiveSettings g xs], .ok []) := by rw [Remote.commit, hxs]
  have hwanted : (Call.resolveSettings g false).wanted? = some (.settings g false) := rfl
  refine perform_read hwanted rfl hcommit fun v hv => ⟨(v.readSettings g false).2, rfl, rfl, ?_⟩
  have hread : (v.readSettings g false).1.value = State.addSettings 1 0 xs [] := by
    have hpart : v.state.settings.value.get? g = some ⟨⟨1, 0⟩, State.addSettings 1 0 xs []⟩ := by
      rw [hv]
      exact (Sorted.get?_put g g _ _).trans (if_pos rfl)
    rw [readSettings, Memo.readSettings, hpart]
    cases v.state.edits.value.get? g <;> rfl
  rw [← hread]
  rfl

end Store

/-! ### Commands -/

namespace Command

variable {c : Command} {tr : Transport} {s : Store} {ask : Call}

/-- A command that only asks. -/
theorem run_of_ask (h : c.plan = .ok { ask }) {a : Answer}
    (hask : (s.perform tr ask).1 = some (.ok a)) : (run tr s c).1 = c.report (.ok a) := by
  unfold run runWith
  rw [h]
  show c.report ((s.perform tr ask).1.getD (.error unanswered)) = _
  rw [hask]
  rfl

/-- **What commands print can be typed, and changes nothing.**

* The text of any printable JSON value is read as the value, alone or in an assignment.
* An assignment fails exactly if its text has no equals sign or begins with one.
* `get` prints the text of the value that is reported.  If it is printable, it can be typed; and
  `set` with what was printed asks a service that still reports the value under the id for the
  setting, and sends nothing else.
* `list` prints a line for each id that is reported, with the text of its last value; and if that is
  printable, it can be typed. -/
theorem printed_can_be_typed (name : String) (e : Endpoints)
    (answer : List Request → Request → Reply) :
    (∀ j : Json, j.Printable → (Value.ofJson j).Typed (Value.ofJson j).toJson.text) ∧
    (∀ raw, Assignment.parse raw = none ↔ Assignment.Bad raw) ∧
    (∀ g id x, Remote.decodeReply Setting.decode (answer [] (.get (e.setting g id))) = .ok x →
      x.id = id →
      (run (.served answer) (.fresh name e) (.get g id)).1 = (line [x.value.toJson.text], none) ∧
      (x.value.toJson.Printable → x.value.Typed x.value.toJson.text ∧
        ∀ (answer' : List Request → Request → Reply) y,
          Remote.decodeReply Setting.decode (answer' [] (.get (e.setting g id))) = .ok y →
          y.id = id → y.value = x.value →
          (run (.served answer') (.fresh name e) (.set g id x.value.toJson.text)).2.requests
            = [.get (e.setting g id)])) ∧
    ∀ g xs, Remote.decodeReply (Decode.list Setting.decode) (answer [] (.get (e.group g)))
        = .ok xs →
      (run (.served answer) (.fresh name e) (.list g)).1
        = (lines ((Keyed.ofPairs (xs.map fun x => (x.id, x))).values.map settingLine), none) ∧
      ∀ x ∈ xs, x.value.toJson.Printable → x.value.Typed x.value.toJson.text := by
  refine ⟨fun j hj => hj.typed, fun raw => Assignment.parse_eq_none_iff, ?_, ?_⟩
  · rintro g _ x hx rfl
    refine ⟨run_of_ask rfl (Store.perform_resolveValue answer hx), fun hprintable => ?_⟩
    have htyped := (Remote.plain_of_decodeReply hx).typed hprintable
    refine ⟨htyped, fun answer' y hy hid hvalue => ?_⟩
    refine (setSends_run name e answer' g x.id x.value.toJson.text).unchanged y hy ⟨hid, ?_⟩
    have hproper := Value.proper_parse x.value.toJson.text
    rw [htyped.value] at hproper ⊢
    rw [hvalue]
    exact Value.equals_self hproper
  · intro g xs hxs
    refine ⟨?_, fun x hx hprintable => ?_⟩
    · rw [run_of_ask rfl (Store.perform_resolveSettings answer hxs),
        ← State.contents_addSettings_nil 1 0]
      simp only [report, Keyed.values, Memo.contents, List.map_map]
      rfl
    · exact (Remote.plain_of_decodeReply_list hxs x hx).typed hprintable

/-- A half. -/
def half : Binary64 := ⟨false, 1022 <<< 52, by decide⟩

set_option maxRecDepth 2000 in
theorem parse_text_half : Json.parse (String.ofList half.text) = .ok (.number (.real half)) := by
  have htext : half.text = ['0', '.', '5'] := by decide +kernel
  rw [htext]
  rfl

/-- JSON with both ends of whole numbers, a half, and characters that are escaped. -/
def motley : Json :=
  .object [("a\"b", .array [.number (.whole ⟨18446744073709551615, by decide, by decide⟩),
    .number (.whole ⟨-9223372036854775808, by decide, by decide⟩), .number (.real half)]),
    ("\n\x01é", .null)]

/-- The text of that JSON. -/
def motleyText : String :=
  "\x7b\"a\\\"b\":[18446744073709551615,-9223372036854775808,0.5],\"\\n\\u0001é\":null\x7d"

theorem text_motley : motley.text = motleyText := by decide +kernel

theorem printable_motley : motley.Printable where
  proper := by decide
  depth_le := by decide
  reals x hx := by
    have hreals : motley.reals = [half] := by
      simp [motley, Json.reals, Json.realsFields, Json.realsAll]
    rw [hreals, List.mem_singleton] at hx
    rw [hx]
    exact parse_text_half

/-- A setting with that value, as a service reports it. -/
def motleySetting : Setting := { id := "a", value := .other motley }

/-- A service that reports that setting. -/
def motleyService (_ : List Request) (request : Request) : Reply :=
  if request.path = "/settings/g" then .ok (.array [motleySetting.toJson])
  else .ok motleySetting.toJson

/-- Its value is printed, read as it was and taken for no change. -/
theorem motley_can_be_typed :
    (run (.served motleyService) (.fresh "s" ⟨"", "/groups"⟩) (.get "g" "a")).1
        = (line [motleyText], none) ∧
      (run (.served motleyService) (.fresh "s" ⟨"", "/groups"⟩) (.list "g")).1
        = (line ["a", "text", motleyText], none) ∧
      Value.parse motleyText = .other motley ∧
      Assignment.parse ("x=" ++ motleyText) = some ⟨"x", .other motley⟩ ∧
      Assignment.parse motleyText = none ∧
      (run (.served motleyService) (.fresh "s" ⟨"", "/groups"⟩)
        (.set "g" "a" motleyText)).2.requests = [.get "/settings/g/a"] := by
  obtain ⟨htyped, hbad, hget, hlist⟩ := printed_can_be_typed "s" ⟨"", "/groups"⟩ motleyService
  obtain ⟨hprinted, hset⟩ := hget "g" "a" motleySetting rfl rfl
  obtain ⟨hlisted, -⟩ := hlist "g" [motleySetting] rfl
  obtain ⟨-, hsent⟩ := hset printable_motley
  replace hsent := hsent motleyService motleySetting rfl rfl rfl
  obtain ⟨hvalue, hassign⟩ := htyped motley printable_motley
  have hlines : lines ((Keyed.ofPairs ([motleySetting].map fun x => (x.id, x))).values.map
      settingLine) = line ["a", "text", motley.text] := by
    show "" ++ settingLine motleySetting = _
    rw [String.empty_append]
    rfl
  rw [hlines] at hlisted
  rw [show motleySetting.value.toJson = motley from rfl] at hprinted hsent
  rw [← text_motley]
  refine ⟨hprinted, hlisted, hvalue, hassign "x" (by decide) (by decide), ?_, hsent⟩
  rw [text_motley]
  exact (hbad motleyText).mpr (by decide)

end Command

end RemoteSettings
