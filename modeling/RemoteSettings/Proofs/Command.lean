import RemoteSettings.Proofs.Assignment
import RemoteSettings.Proofs.State.Transitions
import RemoteSettings.Proofs.Store.Solo

/-!
# Commands that write

A command that writes fetches what it is about to change, records the changes as edits, and saves
the edits.  An edit to the value that is reported is none, and a later value takes the place of an
earlier one.  So what is sent is what really changes, whatever else was typed and whatever the
service reports.

## Main definitions

* `Setting.valueOf?`, `Update.valueOf?` — the value that is reported last, or asked for last.
* `Changes` — a value is asked for that is not the reported one.
* `Transport.served` — a service that answers every request at once, in whatever way.
* `Command.SetSends`, `Command.BatchSends` — what the two commands send, and when they succeed.

## Main results

* `View.recordAll_edit` — the edit that is left of values that are asked for one after another.
* `State.Pending.of_report` — the edits after a report and values that are asked for.
* `Command.writes_send_changes` — **commands send exactly the real changes.**
-/

namespace RemoteSettings

/-- The value that settings report last under an id. -/
def Setting.valueOf? (xs : List Setting) (id : String) : Option Value :=
  (xs.findRev? (·.id == id)).map (·.value)

/-- The value that updates ask for last under an id. -/
def Update.valueOf? (us : List Update) (id : String) : Option Value :=
  (us.findRev? (·.id == id)).map (·.value)

/-- Settings have been reported and updates are asked for: under an id, a value is asked for that is
not equal to the reported one, be it that none was reported. -/
def Changes (xs : List Setting) (us : List Update) (id : String) : Prop :=
  ∃ v, Update.valueOf? us id = some v ∧ (Setting.valueOf? xs id).any (·.equals v) = false

/-! ### Edits that are left -/

/-- The edit that is left of values that are asked for one after another: the last of them, unless
it is the reported one. -/
theorem View.recordAll_edit (v : View) (g id : String) (us : List Update) :
    (v.recordAll g us).edit g id = (Update.valueOf? us id).elim (v.edit g id) fun w =>
      if (v.setting g id).any (·.value.equals w) then none else some w := by
  induction us generalizing v with
  | nil => rfl
  | cons u us ih =>
    have hfirst : (v.recordEdit g u.id u.value).edit g id
        = if u.id = id then
            if (v.setting g id).any (·.value.equals u.value) then none else some u.value
          else v.edit g id := by
      show View.replace v.edit g u.id _ g id = _
      rw [View.replace]
      by_cases hid : u.id = id
      · rw [if_pos ⟨rfl, hid⟩, if_pos hid, hid]
      · rw [if_neg fun h => hid h.2, if_neg hid]
    refine (ih (v.recordEdit g u.id u.value)).trans ?_
    rw [hfirst, Update.valueOf?, Update.valueOf?, State.findRev?_cons]
    cases us.findRev? (·.id == id) with
    | some w => rfl
    | none =>
      by_cases hid : u.id = id <;> simp [hid]

namespace State

/-- Settings have been reported of a group, and nothing is edited. -/
structure Unedited (g : String) (xs : List Setting) (s : State) : Prop where
  kept : s.Kept
  edit : ∀ h id, s.edit? h id = none
  setting : ∀ id, s.view.setting g id = xs.findRev? (·.id == id)

theorem Unedited.of_report (now : Nat) (g : String) (xs : List Setting) :
    Unedited g xs (State.empty.reduce now (.receiveSettings g xs)) where
  kept := Kept.empty.reduce now _
  edit h id := by
    rw [edit?_receiveSettings Kept.empty]
    split <;> rfl
  setting id := by
    refine (setting?_receiveSettings .empty now g g xs id).trans ?_
    rw [if_pos rfl, show State.empty.setting? g id = none from rfl, Option.map_none, Option.or_none]

/-- What values that are asked for leave of an edit: the last one, unless it is the reported one. -/
theorem Unedited.rel_edit {s : State} {g : String} {xs : List Setting} {us : List Update}
    (h : s.Unedited g xs) (hus : ∀ u ∈ us, u.value.proper = true) (later : Nat) (id : String) :
    Option.Rel (fun a b => (a == b) = true) ((s.reduce later (.editAll g us)).edit? g id)
      ((Update.valueOf? us id).elim none fun w =>
        if (Setting.valueOf? xs id).any (·.equals w) then none else some w) := by
  have hproper : ∀ h id e, s.edit? h id = some e → e.proper = true :=
    fun g' id' e he => by cases (h.edit g' id').symm.trans he
  have hleft := rel_editAll h.kept hproper later g hus g id
  rw [View.recordAll_edit, show s.view.edit g id = none from h.edit g id, h.setting] at hleft
  rw [Setting.valueOf?]
  simp only [Option.any_map]
  exact hleft

/-- An id that changes is left with an edit that is equal to the last value, and no other id is. -/
theorem Unedited.edit_cases {s : State} {g : String} {xs : List Setting} {us : List Update}
    (h : s.Unedited g xs) (hus : ∀ u ∈ us, u.value.proper = true) (later : Nat) (id : String) :
    ((s.reduce later (.editAll g us)).edit? g id = none ∧ ¬Changes xs us id) ∨
      ∃ e v, (s.reduce later (.editAll g us)).edit? g id = some e ∧
        Update.valueOf? us id = some v ∧ (Setting.valueOf? xs id).any (·.equals v) = false ∧
        e.equals v = true := by
  have hleft := h.rel_edit hus later id
  generalize (s.reduce later (.editAll g us)).edit? g id = edit at hleft
  cases hv : Update.valueOf? us id with
  | none =>
    rw [hv, Option.elim_none] at hleft
    cases hleft
    refine Or.inl ⟨rfl, ?_⟩
    rintro ⟨v, hv', -⟩
    cases hv.symm.trans hv'
  | some v =>
    rw [hv, Option.elim_some] at hleft
    cases hany : (Setting.valueOf? xs id).any (·.equals v) with
    | true =>
      rw [hany, if_pos rfl] at hleft
      cases hleft
      refine Or.inl ⟨rfl, ?_⟩
      rintro ⟨v', hv', hdiffers⟩
      cases hv.symm.trans hv'
      cases hany.symm.trans hdiffers
    | false =>
      rw [hany, if_neg Bool.false_ne_true] at hleft
      cases hleft with
      | some heq => exact Or.inr ⟨_, v, rfl, rfl, hany, heq⟩

/-- After a report, updates have left edits: one for each id that changes, with a value that is
asked for and equal to the last one. -/
structure Pending (g : String) (xs : List Setting) (us : List Update) (s : State) : Prop where
  edited : ∀ id, (∃ e, s.edit? g id = some e) ↔ Changes xs us id
  value : ∀ id e, s.edit? g id = some e →
    ⟨id, e⟩ ∈ us ∧ ∃ v, Update.valueOf? us id = some v ∧ e.equals v = true

/-- **Edits after a report and values that are asked for.** -/
theorem Pending.of_report (now later : Nat) (g : String) (xs : List Setting) {us : List Update}
    (hus : ∀ u ∈ us, u.value.proper = true) :
    Pending g xs us ((State.empty.reduce now (.receiveSettings g xs)).reduce later
      (.editAll g us)) := by
  have h := Unedited.of_report now g xs
  generalize State.empty.reduce now (.receiveSettings g xs) = s at h ⊢
  constructor
  · intro id
    rcases h.edit_cases hus later id with ⟨hno, hsame⟩ | ⟨e, v, he, hv, hdiffers, -⟩
    · rw [hno]
      refine ⟨?_, fun hchanges => absurd hchanges hsame⟩
      rintro ⟨e, ⟨⟩⟩
    · exact ⟨fun _ => ⟨v, hv, hdiffers⟩, fun _ => ⟨e, he⟩⟩
  · intro id e he
    refine ⟨?_, ?_⟩
    · rw [edit?_editAll h.kept, if_pos rfl] at he
      rcases get?_applyEdits_eq_some (h.kept.edits.distinct g) he with hold | ⟨hmem, -⟩
      · rw [← edit?_eq] at hold
        cases (h.edit g id).symm.trans hold
      · exact hmem
    · rcases h.edit_cases hus later id with ⟨hno, -⟩ | ⟨e', v, he', hv, -, heq⟩
      · cases hno.symm.trans he
      · cases he'.symm.trans he
        exact ⟨v, hv, heq⟩

end State

/-- A service that answers every request at once, in whatever way. -/
def Transport.served (answer : List Request → Request → Reply) : Transport :=
  fun earlier request => some (answer earlier request)

/-! ### A store with edits -/

namespace Store

variable {name : String} {e : Endpoints} {tr : Transport} {reply : Reply} {g : String}
  {xs : List Setting} {us : List Update}

/-- A new store has fetched settings of a group and recorded what updates ask for, and nobody works
in it. -/
structure Edited (e : Endpoints) (get : Request) (g : String) (xs : List Setting) (us : List Update)
    (s : Store) : Prop where
  clear : s.desk.Clear none
  agreed : s.answers.Agreed
  tracked : s.Tracked
  requests : s.requests = [get]
  endpoints : s.endpoints = e
  pending : State.Pending g xs us s.state

theorem clear_fresh (name : String) (e : Endpoints) : (fresh name e).desk.Clear none :=
  ⟨rfl, rfl, rfl, fun _ hc => absurd hc List.not_mem_nil⟩

/-- A call that edits fails in a new store if it cannot fetch what it is to edit. -/
theorem perform_edit_unread (name : String) (tr : Transport) {call : Call} {wanted : Followup}
    {a : Action} (hwanted : call.wanted? = some wanted) (hedit : wanted.edit? = some a)
    (hreply : tr [] (wanted.key.remote.request e) = some reply) {f : Failure}
    (hresult : (wanted.key.remote.commit reply).2 = .error f) :
    ((fresh name e).perform tr call).1 = some (.error f) ∧
      ((fresh name e).perform tr call).2.requests = [wanted.key.remote.request e] := by
  obtain ⟨-, hrequests, -, hfails, -⟩ := perform_edit (clear_fresh name e)
    (agreed_after name e []) hwanted hedit rfl hreply
  exact ⟨hfails f hresult, hrequests⟩

/-- A call that edits leaves a new store with edits if what it is to edit is reported. -/
theorem perform_edit_read (name : String) (tr : Transport) {call : Call} {wanted : Followup}
    {a : Action} (hwanted : call.wanted? = some wanted) (hedit : wanted.edit? = some a)
    (hreply : tr [] (wanted.key.remote.request e) = some reply) {result : List Setting}
    (hcommit : wanted.key.remote.commit reply = ([.receiveSettings g xs], .ok result))
    (haction : ∀ (s : State) now, s.reduce now a = s.reduce now (.editAll g us))
    (hus : ∀ u ∈ us, u.value.proper = true) :
    ((fresh name e).perform tr call).1 = some (.ok .nothing) ∧
      Edited e (wanted.key.remote.request e) g xs us ((fresh name e).perform tr call).2 := by
  obtain ⟨hclear, hrequests, hendpoints, -, hedits⟩ := perform_edit (clear_fresh name e)
    (agreed_after name e []) hwanted hedit rfl hreply
  obtain ⟨hanswer, hstate⟩ := hedits result (by rw [hcommit])
  obtain ⟨ms, hrun⟩ := exists_perform_eq_after tr (fresh name e) call
  have htidy : (fresh name e).Tidy := tidy_after name e []
  have hreduced : ((fresh name e).perform tr call).2.state
      = (State.empty.reduce 1 (.receiveSettings g xs)).reduce 2 (.editAll g us) := by
    rw [hstate, hcommit]
    show (((fresh name e).dispatch (.receiveSettings g xs)).dispatch a).state = _
    rw [(htidy.dispatch _).dispatch_state, htidy.dispatch_state, dispatch_clock, haction]
    rfl
  refine ⟨hanswer, hclear, ?_, ?_, hrequests, hendpoints, ?_⟩
  · rw [hrun]
    exact agreed_after name e ms
  · rw [hrun]
    exact tracked_after name e ms
  · rw [hreduced]
    exact .of_report 1 2 g xs hus

namespace Edited

variable {get : Request} {s : Store}

/-- The edit of a setting is saved if there is one. -/
theorem save_setting (hs : s.Edited e get g xs us) (answer : List Request → Request → Reply)
    (id : String) :
    (∀ w, s.state.edit? g id = some w →
      (s.perform (.served answer) (.saveEditedSetting g id)).2.requests
        = [get, (Remote.saveSetting g id w).request e]) ∧
    (s.state.edit? g id = none →
      (s.perform (.served answer) (.saveEditedSetting g id)).2.requests = [get]) := by
  have hsave := hs.tracked.saveOf?_saveEditedSetting g id
  constructor
  · intro w hw
    rw [hw, Option.map_some] at hsave
    rw [(perform_save (.served answer) hs.clear hs.agreed hsave rfl).2, hs.requests, hs.endpoints]
    rfl
  · intro hnone
    rw [hnone, Option.map_none] at hsave
    have hbegin : (s.engage (.saveEditedSetting g id)).begin (.served answer) s.tasks.length
        (.saveEditedSetting g id) = _ := begin_of_no_edit hsave
    rw [(perform_unedited hs.clear hs.agreed hbegin).2, hs.requests]

/-- What is submitted for a group is an update for each setting that changes. -/
theorem submission (hs : s.Edited e get g xs us) :
    ((s.submission g).map (·.id)).Nodup ∧
      (∀ id, id ∈ (s.submission g).map (·.id) ↔ Changes xs us id) ∧
      ∀ u ∈ s.submission g, ∃ v, Update.valueOf? us u.id = some v ∧ u.value.equals v = true := by
  refine ⟨?_, fun id => ?_, fun u hu => ?_⟩
  · have hkeys : (s.submission g).map (·.id) = (State.part s.state.edits g).keys := by
      rw [hs.tracked.submission_eq, List.map_map]
      rfl
    rw [hkeys]
    exact hs.tracked.regular.kept.edits.distinct g
  · rw [← hs.pending.edited, List.mem_map]
    constructor
    · rintro ⟨u, hu, rfl⟩
      exact ⟨u.value, (hs.tracked.mem_submission g u).mp hu⟩
    · rintro ⟨w, hw⟩
      exact ⟨⟨id, w⟩, (hs.tracked.mem_submission g _).mpr hw, rfl⟩
  · exact (hs.pending.value u.id u.value ((hs.tracked.mem_submission g u).mp hu)).2

/-- The edits of a group are saved if there are any. -/
theorem save_settings (hs : s.Edited e get g xs us) (answer : List Request → Request → Reply) :
    ((∃ id, Changes xs us id) →
      (s.perform (.served answer) (.saveEditedSettings g)).2.requests
          = [get, (Remote.saveBatch g (s.submission g)).request e] ∧
        (s.perform (.served answer) (.saveEditedSettings g)).1
          = some (((Remote.saveBatch g (s.submission g)).commit
              (answer [get] ((Remote.saveBatch g (s.submission g)).request e))).2.map .saved)) ∧
    ((∀ id, ¬Changes xs us id) →
      (s.perform (.served answer) (.saveEditedSettings g)).2.requests = [get] ∧
        (s.perform (.served answer) (.saveEditedSettings g)).1 = some (.ok (.saved []))) := by
  have hsave := hs.tracked.saveOf?_saveEditedSettings g
  constructor
  · rintro ⟨id, hid⟩
    obtain ⟨w, hw⟩ := (hs.pending.edited id).mpr hid
    have hedits : s.state.hasEdits g = true := by
      cases hnone : s.state.hasEdits g with
      | true => rfl
      | false =>
        rw [State.hasEdits_eq, Bool.not_eq_false', List.isEmpty_iff] at hnone
        rw [State.edit?_eq, hnone] at hw
        cases hw
    rw [if_pos hedits] at hsave
    obtain ⟨hanswer, hrequests⟩ := perform_save (.served answer) hs.clear hs.agreed hsave rfl
    rw [hs.requests, hs.endpoints] at hanswer hrequests
    exact ⟨hrequests, hanswer⟩
  · intro hsame
    have hnone : ∀ id, s.state.edit? g id = none := by
      intro id
      rw [Option.eq_none_iff_forall_ne_some]
      exact fun w hw => hsame id ((hs.pending.edited id).mp ⟨w, hw⟩)
    rw [State.hasEdits_eq_false hnone, if_neg Bool.false_ne_true] at hsave
    have hbegin : (s.engage (.saveEditedSettings g)).begin (.served answer) s.tasks.length
        (.saveEditedSettings g) = _ := begin_of_no_edits hsave
    obtain ⟨hanswer, hrequests⟩ := perform_unedited hs.clear hs.agreed hbegin
    exact ⟨hrequests.trans hs.requests, hanswer⟩

end Edited

end Store

/-! ### Commands from their beginning to their end -/

namespace Command

variable {c : Command} {tr : Transport} {s : Store} {edit ask : Call}

theorem run_of_problem {p : Problem} (h : c.plan = .error p) : run tr s c = (("", some p), s) := by
  unfold run runWith
  rw [h]
  rfl

/-- A command ends if its edit fails. -/
theorem run_of_edit_error (h : c.plan = .ok ⟨some edit, ask⟩) {f : Failure}
    (hedit : (s.perform tr edit).1 = some (.error f)) :
    run tr s c = (("", some (.store f)), (s.perform tr edit).2) := by
  unfold run runWith
  rw [h]
  simp only [pure_bind, hedit]
  rfl

/-- A command goes on to its question if its edit succeeds. -/
theorem run_of_edit_ok (h : c.plan = .ok ⟨some edit, ask⟩) {a : Answer}
    (hedit : (s.perform tr edit).1 = some (.ok a)) :
    run tr s c = (c.report (((s.perform tr edit).2.perform tr ask).1.getD (.error unanswered)),
      ((s.perform tr edit).2.perform tr ask).2) := by
  unfold run runWith
  rw [h]
  simp only [pure_bind, hedit]
  rfl

/-- A batch fails exactly if its answer is a failure. -/
theorem report_batch (g : String) (assignments : List String)
    (result : Except Failure (List Setting)) :
    ((batch g assignments).report (result.map .saved)).2 = none ↔ ∃ ss, result = .ok ss := by
  cases result with
  | ok ss => exact iff_of_true rfl ⟨ss, rfl⟩
  | error f =>
    refine iff_of_false ?_ (by rintro ⟨ss, ⟨⟩⟩)
    cases f <;> simp [Except.map, report]

/-- A batch succeeds if its reply can be read and says of no setting that it has failed. -/
theorem exists_commit_saveBatch_eq_ok_iff {g : String} {us : List Update} {reply : Reply} :
    (∃ ss, ((Remote.saveBatch g us).commit reply).2 = .ok ss) ↔
      ∃ r, Remote.decodeReply BatchReply.decode reply = .ok r ∧ r.failed = [] := by
  rw [Remote.commit]
  cases hreply : Remote.decodeReply BatchReply.decode reply with
  | error f => exact iff_of_false (by rintro ⟨ss, ⟨⟩⟩) (by rintro ⟨r, ⟨⟩, -⟩)
  | ok r =>
    dsimp only
    rw [Remote.batchResult]
    cases hfailed : r.failed with
    | nil => exact iff_of_true ⟨_, rfl⟩ ⟨r, rfl, hfailed⟩
    | cons x xs =>
      refine iff_of_false (by rintro ⟨ss, ⟨⟩⟩) ?_
      rintro ⟨r', ⟨⟩, hnone⟩
      cases hfailed.symm.trans hnone

/-- What is assigned is in the form in which JSON is read, and passes the check for empty ids. -/
theorem checked_of_assigns {assignments : List String} {us : List Update}
    (h : List.Forall₂ Assignment.Assigns assignments us) :
    (∀ u ∈ us, u.value.proper = true) ∧ (Updates.list us).validate = .ok () := by
  have hus : ∀ u ∈ us, u.value.proper = true ∧ u.id ≠ "" := by
    induction h with
    | nil => exact fun u hu => absurd hu List.not_mem_nil
    | cons hassigns _ ih =>
      obtain ⟨raw, -, -, hid, hvalue⟩ := hassigns
      exact List.forall_mem_cons.mpr ⟨⟨hvalue ▸ Value.proper_parse raw, hid⟩, ih⟩
  refine ⟨fun u hu => (hus u hu).1, ?_⟩
  have hnone : (us.map (·.id)).findIdx? (· == "") = none := by
    simpa using fun u hu => (hus u hu).2
  rw [Updates.validate, Updates.ids, hnone]

/-- What `set` sends, given the endpoints, the typed value and the answers of the service: it asks
for the setting, and saves it if the typed value is not the one that is reported under its id. -/
structure SetSends (e : Endpoints) (group id : String) (v : Value)
    (answer : List Request → Request → Reply) (sent : List Request) : Prop where
  unread : ∀ f, Remote.decodeReply Setting.decode (answer [] (.get (e.setting group id)))
    = .error f → sent = [.get (e.setting group id)]
  unchanged : ∀ x, Remote.decodeReply Setting.decode (answer [] (.get (e.setting group id)))
    = .ok x → x.id = id ∧ x.value.equals v = true → sent = [.get (e.setting group id)]
  changed : ∀ x, Remote.decodeReply Setting.decode (answer [] (.get (e.setting group id)))
    = .ok x → ¬(x.id = id ∧ x.value.equals v = true) →
      sent = [.get (e.setting group id), .put (e.setting group id) (.object [("value", v.toJson)])]

/-- What `batch` sends and whether it fails, given the endpoints, the assigned updates and the
answers of the service: it asks for the group, and saves one update for each id that changes. -/
structure BatchSends (e : Endpoints) (group : String) (us : List Update)
    (answer : List Request → Request → Reply) (sent : List Request) (problem : Option Problem) :
    Prop where
  unread : ∀ f, Remote.decodeReply (Decode.list Setting.decode) (answer [] (.get (e.group group)))
    = .error f → sent = [.get (e.group group)] ∧ problem.isSome
  unchanged : ∀ xs,
    Remote.decodeReply (Decode.list Setting.decode) (answer [] (.get (e.group group))) = .ok xs →
      (∀ id, ¬Changes xs us id) → sent = [.get (e.group group)] ∧ problem = none
  changed : ∀ xs,
    Remote.decodeReply (Decode.list Setting.decode) (answer [] (.get (e.group group))) = .ok xs →
      (∃ id, Changes xs us id) → ∃ batch post,
        post = .post (e.batch group) (Updates.batchBody batch) ∧
        sent = [.get (e.group group), post] ∧
        (batch.map (·.id)).Nodup ∧ (∀ id, id ∈ batch.map (·.id) ↔ Changes xs us id) ∧
        (∀ u ∈ batch, ∃ v, Update.valueOf? us u.id = some v ∧ u.value.equals v = true) ∧
        (problem = none ↔ ∃ r, Remote.decodeReply BatchReply.decode
          (answer [.get (e.group group)] post) = .ok r ∧ r.failed = [])

variable {name : String} {e : Endpoints} {answer : List Request → Request → Reply} {g : String}

/-- A setting changes if the only value that is asked for is not the only one that is reported. -/
theorem changes_singleton_iff {x : Setting} {id : String} {v : Value} :
    Changes [x] [⟨id, v⟩] id ↔ ¬(x.id = id ∧ x.value.equals v = true) := by
  have hasked : Update.valueOf? [⟨id, v⟩] id = some v := by simp [Update.valueOf?]
  have hreported : Setting.valueOf? [x] id = if x.id = id then some x.value else none := by
    rw [Setting.valueOf?]
    by_cases hid : x.id = id <;> simp [hid]
  rw [Changes, hasked, hreported]
  by_cases hid : x.id = id <;> simp [hid]

theorem setSends_run (name : String) (e : Endpoints) (answer : List Request → Request → Reply)
    (g id raw : String) : SetSends e g id (.parse raw) answer
      (run (.served answer) (.fresh name e) (.set g id raw)).2.requests := by
  have hwanted : (Call.editSetting g id (.parse raw)).wanted? = some (.edit g id (.parse raw)) :=
    rfl
  have hplan : (Command.set g id raw).plan
      = .ok ⟨some (.editSetting g id (.parse raw)), .saveEditedSetting g id⟩ := rfl
  have hread : ∀ x, Remote.decodeReply Setting.decode (answer [] (.get (e.setting g id))) = .ok x →
      (run (.served answer) (.fresh name e) (.set g id raw)).2.requests
        = if x.id = id ∧ x.value.equals (.parse raw) = true then [.get (e.setting g id)]
          else [.get (e.setting g id),
            .put (e.setting g id) (.object [("value", (Value.parse raw).toJson)])] := by
    intro x hx
    have hcommit : (Remote.fetchSetting g id).commit (answer [] (.get (e.setting g id)))
        = ([.receiveSettings g [x]], .ok []) := by rw [Remote.commit, hx]
    obtain ⟨hedit, hs⟩ := Store.perform_edit_read name (.served answer) hwanted rfl
      rfl hcommit (fun s now => State.reduce_edit s now g id _) (by
        simpa using Value.proper_parse raw)
    rw [run_of_edit_ok hplan hedit]
    obtain ⟨hedited, hunedited⟩ := hs.save_setting answer id
    have hchanges := (hs.pending.edited id).trans changes_singleton_iff
    split
    · next hsame =>
      refine hunedited (Option.eq_none_iff_forall_ne_some.mpr fun w hw => ?_)
      exact hchanges.mp ⟨w, hw⟩ hsame
    · next hdiffers =>
      obtain ⟨w, hw⟩ := hchanges.mpr hdiffers
      obtain ⟨hmem, -⟩ := hs.pending.value id w hw
      cases List.mem_singleton.mp hmem
      exact hedited _ hw
  refine ⟨fun f hf => ?_, fun x hx hsame => ?_, fun x hx hdiffers => ?_⟩
  · have hcommit : ((Remote.fetchSetting g id).commit (answer [] (.get (e.setting g id)))).2
        = .error f := by rw [Remote.commit, hf]
    obtain ⟨hedit, hrequests⟩ := Store.perform_edit_unread name (.served answer) hwanted rfl
      rfl hcommit
    rw [run_of_edit_error hplan hedit]
    exact hrequests
  · rw [hread x hx, if_pos hsame]
  · rw [hread x hx, if_neg hdiffers]

theorem batchSends_run {assignments : List String} {us : List Update}
    (hus : updatesOf assignments = .ok us)
    (hassigns : List.Forall₂ Assignment.Assigns assignments us) (name : String) (e : Endpoints)
    (answer : List Request → Request → Reply) (g : String) :
    BatchSends e g us answer
      (run (.served answer) (.fresh name e) (.batch g assignments)).2.requests
      (run (.served answer) (.fresh name e) (.batch g assignments)).1.2 := by
  obtain ⟨hproper, hvalid⟩ := checked_of_assigns hassigns
  have hwanted : (Call.editSettings g (.list us)).wanted? = some (.editAll g us) := by
    rw [Call.wanted?, hvalid]
    rfl
  have hplan : (Command.batch g assignments).plan
      = .ok ⟨some (.editSettings g (.list us)), .saveEditedSettings g⟩ := by
    rw [plan, hus]
    rfl
  have hread : ∀ xs, Remote.decodeReply (Decode.list Setting.decode)
      (answer [] (.get (e.group g))) = .ok xs → ∃ s : Store,
        s.Edited e (.get (e.group g)) g xs us ∧
        run (.served answer) (.fresh name e) (.batch g assignments)
          = ((batch g assignments).report
              ((s.perform (.served answer) (.saveEditedSettings g)).1.getD (.error unanswered)),
            (s.perform (.served answer) (.saveEditedSettings g)).2) := by
    intro xs hxs
    have hcommit : (Remote.fetchSettings g).commit (answer [] (.get (e.group g)))
        = ([.receiveSettings g xs], .ok []) := by rw [Remote.commit, hxs]
    obtain ⟨hedit, hs⟩ := Store.perform_edit_read name (.served answer) hwanted rfl
      rfl hcommit (fun _ _ => rfl) hproper
    exact ⟨_, hs, run_of_edit_ok hplan hedit⟩
  refine ⟨fun f hf => ?_, fun xs hxs hsame => ?_, fun xs hxs hchanges => ?_⟩
  · have hcommit : ((Remote.fetchSettings g).commit (answer [] (.get (e.group g)))).2
        = .error f := by rw [Remote.commit, hf]
    obtain ⟨hedit, hrequests⟩ := Store.perform_edit_unread name (.served answer) hwanted rfl
      rfl hcommit
    rw [run_of_edit_error hplan hedit]
    exact ⟨hrequests, rfl⟩
  · obtain ⟨s, hs, hrun⟩ := hread xs hxs
    obtain ⟨hrequests, hanswer⟩ := (hs.save_settings answer).2 hsame
    rw [hrun, hanswer]
    exact ⟨hrequests, rfl⟩
  · obtain ⟨s, hs, hrun⟩ := hread xs hxs
    obtain ⟨hrequests, hanswer⟩ := (hs.save_settings answer).1 hchanges
    obtain ⟨hnodup, hids, hvalues⟩ := hs.submission
    rw [hrun, hanswer, Option.getD_some]
    exact ⟨s.submission g, _, rfl, hrequests, hnodup, hids, hvalues,
      (report_batch g assignments _).trans exists_commit_saveBatch_eq_ok_iff⟩

end Command

/-- **Commands send exactly the real changes.**  Let a command be given to a new store whose service
answers every request at once, in whatever way.

* `set` asks for the setting, and if this is answered with a setting, it saves the typed value
  unless it is the value that is reported under the id.
* If an assignment of `batch` has no equals sign or no id, the command fails and nothing is sent.
* Otherwise `batch` asks for the group.  If this is not answered with settings, the command fails.
  If nothing changes, it succeeds.  If something changes, one batch is saved; it has one update for
  each id whose last value is not the one that is reported, and no other; and the command succeeds
  exactly if the reply to it can be read and says of no setting that it has failed. -/
theorem Command.writes_send_changes (name : String) (e : Endpoints)
    (answer : List Request → Request → Reply) :
    (∀ g id raw, SetSends e g id (.parse raw) answer
      (run (.served answer) (.fresh name e) (.set g id raw)).2.requests) ∧
    (∀ g assignments, (∃ raw ∈ assignments, Assignment.Bad raw) →
      (run (.served answer) (.fresh name e) (.batch g assignments)).2.requests = [] ∧
        (run (.served answer) (.fresh name e) (.batch g assignments)).1.2.isSome) ∧
    ∀ g assignments, (∀ raw ∈ assignments, ¬Assignment.Bad raw) →
      ∃ us, List.Forall₂ Assignment.Assigns assignments us ∧
        BatchSends e g us answer
          (run (.served answer) (.fresh name e) (.batch g assignments)).2.requests
          (run (.served answer) (.fresh name e) (.batch g assignments)).1.2 := by
  refine ⟨setSends_run name e answer, fun g assignments hbad => ?_, fun g assignments hgood => ?_⟩
  · obtain ⟨p, hp⟩ := updatesOf_of_bad hbad
    have hplan : (batch g assignments).plan = .error p := by
      rw [plan, hp]
      rfl
    rw [run_of_problem hplan]
    exact ⟨rfl, rfl⟩
  · obtain ⟨us, hus, hassigns⟩ := exists_updatesOf hgood
    exact ⟨us, hassigns, batchSends_run hus hassigns name e answer g⟩

/-- A service that reports one setting to whoever asks, and that takes every batch. -/
def switchService (_ : List Request) (request : Request) : Reply :=
  match request.method with
  | .get => .ok (.array [.object [("id", .string "a"), ("value", .bool true)]])
  | _ => .ok (.object [("update", .array [])])

/-- An edit that a later assignment takes back is not sent, and a setting that is not reported is;
without an equals sign nothing is. -/
theorem Command.taken_back_is_not_sent :
    (∃ batch, (run (.served switchService) (.fresh "s" ⟨"", "/groups"⟩)
        (.batch "g" ["a=false", "b=x", "a=true"])).2.requests
          = [.get "/settings/g", .post "/settings/g/batch" (Updates.batchBody batch)]
        ∧ ∀ id, id ∈ batch.map (·.id) ↔ id = "b")
      ∧ (run (.served switchService) (.fresh "s" ⟨"", "/groups"⟩)
        (.batch "g" ["a=false", "b"])).2.requests = [] := by
  obtain ⟨-, hbad, hgood⟩ := Command.writes_send_changes "s" ⟨"", "/groups"⟩ switchService
  refine ⟨?_, (hbad "g" ["a=false", "b"] ⟨"b", by simp, by decide⟩).1⟩
  obtain ⟨us, hassigns, hsends⟩ := hgood "g" ["a=false", "b=x", "a=true"] (by decide)
  have hus : us = [⟨"a", .bool false⟩, ⟨"b", .text "x"⟩, ⟨"a", .bool true⟩] := by
    have hmade : List.Forall₂ Assignment.Assigns ["a=false", "b=x", "a=true"]
        [⟨"a", .bool false⟩, ⟨"b", .text "x"⟩, ⟨"a", .bool true⟩] :=
      .cons ⟨"false", rfl, by decide, by decide, rfl⟩ (.cons ⟨"x", rfl, by decide, by decide, rfl⟩
        (.cons ⟨"true", rfl, by decide, by decide, rfl⟩ .nil))
    refine List.right_unique_forall₂' (fun raw u u' hu hu' => ?_) hassigns hmade
    rw [← Assignment.parse_eq_some_iff] at hu hu'
    exact Option.some.inj (hu.symm.trans hu')
  have hreported : Remote.decodeReply (Decode.list Setting.decode)
      (switchService [] (.get "/settings/g")) = .ok [{ id := "a", value := .bool true }] := rfl
  have hchanges : ∀ id, Changes [{ id := "a", value := .bool true }] us id ↔ id = "b" := by
    intro id
    subst hus
    by_cases hb : id = "b"
    · subst hb
      simp [Changes, Update.valueOf?, Setting.valueOf?]
    · by_cases ha : id = "a"
      · subst ha
        simp [Changes, Update.valueOf?, Setting.valueOf?]
        rfl
      · simp [Changes, Update.valueOf?, Setting.valueOf?, Ne.symm ha, Ne.symm hb, hb]
  obtain ⟨batch, post, rfl, hsent, -, hids, -⟩ :=
    hsends.changed _ hreported ⟨"b", (hchanges "b").mpr rfl⟩
  exact ⟨batch, hsent, fun id => (hids id).trans (hchanges id)⟩

end RemoteSettings
