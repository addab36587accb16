import RemoteSettings.Proofs.Echo
import RemoteSettings.Proofs.Store.Failures
import RemoteSettings.Proofs.Store.Submission

/-!
# Edits that are saved stay visible

Whoever reads with edits sees the edit of a setting where there is one.  To save it sends it to the
service, and once the service has echoed it the edit is gone and the setting has its value.  So for
those who read with edits nothing has changed, be it that one edit was saved or all those of a
group, and whether or not the service had reported the settings before.

## Main definitions

* `State.Saved` — what it does to the state that updates have been saved.

## Main results

* `State.Received.shown` — whoever reads with edits does not see that edits have come back.
* `State.Saved.of_received` — edits that are received back have been saved.
* `Store.Tidy.saved_of_setsOut` — a save of edits that is echoed and that nothing interrupts.
* `saved_edits_stay_visible` — **to save edits is invisible to those who read with edits.**
-/

namespace RemoteSettings

open State (SameOf Received SameButFlags)

namespace State

variable {s s' : State} {g h : String} {us : List Update} {xs : List Setting}

/-- A group of which nothing is edited has no edits. -/
theorem hasEdits_eq_false (hedits : ∀ id, s.edit? g id = none) : s.hasEdits g = false := by
  have hkeys : ∀ id, id ∉ (part s.edits g).keys := by
    intro id hid
    rw [mem_keys_edits, isEdited, hedits id] at hid
    cases hid
  have hnil : (part s.edits g).keys = [] := List.eq_nil_iff_forall_not_mem.mpr hkeys
  rw [hasEdits_eq, List.map_eq_nil_iff.mp hnil]
  rfl

theorem SameOf.value? (hs : SameOf h s s') (id : String) (withEdits : Bool) :
    s'.value? h id withEdits = s.value? h id withEdits := by
  have hsetting : s'.setting? h id = s.setting? h id := by
    rw [State.setting?, State.setting?, hs.settings]
  have hedit : s'.edit? h id = s.edit? h id := by
    rw [State.edit?, State.edit?, hs.edits]
  rw [State.value?, State.value?, hsetting, hedit]

/-- What it does to the state that updates of a group have been saved.  Those who read with edits
see what they saw before; the settings of the updates have the values that were submitted, and
neither edits nor errors; everything else is as it was. -/
structure Saved (g : String) (us : List Update) (s s' : State) : Prop where
  shown : ∀ h id, s'.value? h id true = s.value? h id true
  reported : ∀ u ∈ us, s'.value? g u.id false = some u.value
  edits : ∀ u ∈ us, s'.edit? g u.id = none
  errors : ∀ u ∈ us, s'.error? g (.setting u.id) = none
  groups : s'.groups = s.groups
  others : ∀ h, h ≠ g → SameOf h s s'
  untouched : ∀ id, id ∉ us.map (·.id) → s'.setting? g id = s.setting? g id ∧
    s'.edit? g id = s.edit? g id ∧ s'.error? g (.setting id) = s.error? g (.setting id)
  all : s'.error? g .all = s.error? g .all

/-- The last setting of an id among settings is one of them. -/
theorem exists_last_of_mem {id : String} (hid : id ∈ xs.map (·.id)) :
    ∃ x ∈ xs, xs.findRev? (·.id == id) = some x ∧ x.id = id := by
  obtain ⟨x, hx⟩ := exists_findRev?_of_mem hid
  have hfind : xs.reverse.find? (·.id == id) = some x := by
    rw [← List.findRev?_eq_find?_reverse, hx]
  have hpred := List.find?_some (p := fun y : Setting => y.id == id) hfind
  exact ⟨x, List.mem_reverse.mp (List.mem_of_find?_eq_some hfind), hx, beq_iff_eq.mp hpred⟩

namespace Received

/-- What is reported of a setting that comes back as it was edited is its edit, and the edit is
gone. -/
theorem replaces_edit (hreceived : Received g xs s s')
    (hedits : ∀ x ∈ xs, s.edit? g x.id = some x.value) {id : String} (hid : id ∈ xs.map (·.id)) :
    s'.edit? g id = none ∧ ∃ e, s.edit? g id = some e ∧ s'.value? g id false = some e := by
  obtain ⟨x, hmem, hx, rfl⟩ := exists_last_of_mem hid
  have hvalue : (s'.setting? g x.id).map (·.value) = some x := by
    rw [hreceived.values, hx, Option.some_or]
  refine ⟨by rw [hreceived.edits, if_pos hid], x.value, hedits x hmem, ?_⟩
  obtain ⟨y, hy, rfl⟩ := Option.map_eq_some_iff.mp hvalue
  rw [State.value?, hy]
  rfl

/-- Settings that do not come back are as they were. -/
theorem untouched (hreceived : Received g xs s s') {id : String} (hid : id ∉ xs.map (·.id)) :
    s'.setting? g id = s.setting? g id ∧ s'.edit? g id = s.edit? g id ∧
      s'.error? g (.setting id) = s.error? g (.setting id) := by
  refine ⟨hreceived.settings id hid, by rw [hreceived.edits, if_neg hid], ?_⟩
  rw [hreceived.errors, if_neg (by simpa using hid)]

/-- Whoever reads with edits does not see that edits have come back. -/
theorem shown (hreceived : Received g xs s s') (hedits : ∀ x ∈ xs, s.edit? g x.id = some x.value)
    (h id : String) : s'.value? h id true = s.value? h id true := by
  by_cases hg : h = g
  · subst hg
    by_cases hid : id ∈ xs.map (·.id)
    · obtain ⟨hgone, e, he, hvalue⟩ := hreceived.replaces_edit hedits hid
      have hbefore : s.value? h id true = some e := by
        rw [State.value?, if_pos rfl, he, Option.some_or]
      have hafter : s'.value? h id true = s'.value? h id false := by
        rw [State.value?, State.value?, if_pos rfl, hgone]
        rfl
      rw [hafter, hvalue, hbefore]
    · obtain ⟨hsetting, hedit, -⟩ := hreceived.untouched hid
      rw [State.value?, State.value?, hsetting, hedit]
  · exact (hreceived.others h hg).value? id true

end Received

/-- **Edits that are received back have been saved.** -/
theorem Saved.of_received (hreceived : Received g xs s s')
    (hxs : ∀ u, u ∈ xs.map Setting.update ↔ u ∈ us)
    (hedits : ∀ u ∈ us, s.edit? g u.id = some u.value) : Saved g us s s' := by
  have hids : ∀ id, id ∈ us.map (·.id) ↔ id ∈ xs.map (·.id) := by
    intro id
    have hmap : xs.map (·.id) = (xs.map Setting.update).map (·.id) := by
      rw [List.map_map]
      rfl
    rw [hmap, List.mem_map, List.mem_map]
    simp only [hxs]
  have hmem : ∀ u ∈ us, u.id ∈ xs.map (·.id) := fun u hu =>
    (hids u.id).mp (List.mem_map_of_mem hu)
  have hback : ∀ x ∈ xs, s.edit? g x.id = some x.value := fun x hx =>
    hedits x.update ((hxs x.update).mp (List.mem_map_of_mem hx))
  refine ⟨hreceived.shown hback, ?_, ?_, ?_, hreceived.groups, hreceived.others, ?_, ?_⟩
  · intro u hu
    obtain ⟨-, e, he, hvalue⟩ := hreceived.replaces_edit hback (hmem u hu)
    rw [hvalue, ← he, hedits u hu]
  · intro u hu
    exact (hreceived.replaces_edit hback (hmem u hu)).1
  · intro u hu
    rw [hreceived.errors, if_pos (by simpa using hmem u hu)]
  · intro id hid
    exact hreceived.untouched fun hx => hid ((hids id).mpr hx)
  · rw [hreceived.errors, if_neg (by simp)]

end State

/-- What echoes an operation echoes a save, which holds up the flag of what it is about. -/
theorem Remote.EchoedBy.flag? {op : Remote} {body : Json} (h : op.EchoedBy body) :
    op.flag? = op.target? := by
  cases op with
  | saveSetting g id value => rfl
  | saveBatch g us => rfl
  | _ => cases h

namespace Store

variable {s u : Store} {n : Nat} {g : String} {t : Task} {tr : Transport}

/-- **A save of edits that is echoed and that nothing interrupts.** -/
theorem Tidy.saved_of_setsOut (h : s.Tidy) {op : Remote} {id : Option String} {body : Json}
    {ms : List StoreMove} (hn : s.tasks[n]? = some t) (hdoomed : t.doomed = false)
    (hsets : s.SetsOut n op .save t.phase) (hms : Alone tr s op (.ok body) n ms)
    (htarget : op.target? = some (g, id)) (hechoed : op.EchoedBy body)
    (hplain : ∀ u ∈ op.submitted, u.value.Plain) (hsome : op.submitted ≠ [])
    (hedits : ∀ u ∈ op.submitted, s.state.edit? g u.id = some u.value) :
    State.Saved g op.submitted s.state (s.after ms).state ∧
      (s.after ms).state.flag (g, id) = false ∧
      ∃ xs, (∀ u, u ∈ xs.map Setting.update ↔ u ∈ op.submitted) ∧
        (t.quiet = false → (s.after ms).latest? = some (.done n (.ok (savedAnswer op xs)))) := by
  obtain ⟨xs, hcommit, hxs⟩ := hechoed.commit htarget hplain hsome
  obtain ⟨v, w, lock, hafter, hidles, hstate, hclock, hquiet⟩ :=
    exists_complete_of_setsOut hn hdoomed hsets hms
  have hv : v.Tidy := hidles.tidy h
  have hw : w.Tidy := (hv.setFlag op true).congr hstate hclock
  have hend : (s.after ms).state
      = ((w.dispatch (.receiveSettings g xs)).setFlag op false).state := by
    rw [hafter, complete_save_state, hcommit]
    rfl
  -- The flag goes up before the settings are received, and falls after it.
  have hbefore : SameButFlags s.state w.state := by
    rw [hstate, ← hidles.state]
    exact sameButFlags_setFlag v op true
  have hreceived : Received g xs w.state (w.dispatch (.receiveSettings g xs)).state := by
    rw [hw.dispatch_state]
    exact State.received_reduce hw.kept _ g xs
  refine ⟨.of_received (hreceived.congr hbefore ?_) hxs hedits, ?_, xs, hxs, fun hspeaks => ?_⟩
  · rw [hend]
    exact sameButFlags_setFlag _ op false
  · rw [hend, (hw.dispatch _).flag_setFlag, if_pos (hechoed.flag?.trans htarget)]
  · rw [hspeaks] at hquiet
    rw [hafter, complete_save_latest? hquiet, hcommit]
    rfl

/-! ### Nothing to save -/

/-- From one store to another, a task has answered, nothing has been sent and the state is as it
was. -/
structure OnlyAnswers (s : Store) (n : Nat) (answer : Answer) (s' : Store) : Prop where
  state : s'.state = s.state
  requests : s'.requests = s.requests
  answer : s.tasks[n]?.map (·.quiet) = some false → s'.latest? = some (.done n (.ok answer))

/-- A task that answers as soon as it begins does nothing else. -/
theorem onlyAnswers_of_begin {call : Call} {answer : Answer} (hn : s.tasks[n]? = some t)
    (hdoomed : t.doomed = false) (hphase : t.phase = .ready call)
    (hidles : { s with line := s.line.erase n }.Idles u)
    (hbegin : { s with line := s.line.erase n }.begin tr n call = u.finish n (.ok answer)) :
    s.OnlyAnswers n answer (s.move (.turn tr n)) := by
  have hturn : s.move (.turn tr n) = u.finish n (.ok answer) := by
    rw [move, turn_ready (s := { s with line := s.line.erase n }) hn hdoomed hphase, hbegin]
  have hrequests : (u.finish n (.ok answer)).requests = u.requests := by
    rw [finish_eq]
    rfl
  refine ⟨?_, ?_, fun hquiet => ?_⟩
  · rw [hturn, finish_state, hidles.state]
  · rw [hturn, hrequests, hidles.requests]
  · rw [hturn]
    refine finish_latest? ?_ _
    rw [hidles.tasks]
    exact hquiet

theorem begin_of_no_edits (h : s.saveOf? (.saveEditedSettings g) = none) :
    s.begin tr n (.saveEditedSettings g) = (s.readEditedIds g).2.finish n (.ok (.saved [])) := by
  rw [saveOf?] at h
  split at h
  · next hempty => exact if_pos hempty
  · cases h

theorem begin_of_no_edit {id : String} (h : s.saveOf? (.saveEditedSetting g id) = none) :
    s.begin tr n (.saveEditedSetting g id)
      = (s.readEditedIds g).2.finish n (.ok (.setting none)) := by
  rw [saveOf?] at h
  rw [begin]
  dsimp only
  split
  · next value hvalue =>
    have hvalue' : s.state.value? g id true = some value := hvalue
    rw [hvalue', Option.bind_some] at h
    split at h
    · cases h
    · next hunedited => exact if_neg hunedited
  · rfl

end Store

/-- **To save edits is invisible to those who read with edits.**  After any run, let a task begin
to save what is edited, with the lock to be had at once and nothing to interrupt it, and let the
service echo what is submitted.  It does so if it sends back no more than the updates, whatever
their values are; but it may say more of the settings, and in any order.

* If the edits of a group are saved, then they are what is submitted.  If they are in the form in
  which JSON is read, they have been saved in the end: whoever reads with edits sees what was to be
  seen before, and what was submitted is what is reported now, without edits and errors.  The group
  has no edits any more, its flag is down, and the answer is the settings that were saved.
* If the edit of one setting is saved, the same holds of this edit and of the flag of the setting.
* If nothing is edited, nothing is sent and the state is as it was. -/
theorem saved_edits_stay_visible (name : String) (endpoints : Endpoints) (ms : List StoreMove) :
    let s := (Store.fresh name endpoints).after ms
    (∀ u : Update, u.EchoedBy u.toJson) ∧
    (∀ us, Updates.EchoedBy us (Updates.batchBody us)) ∧
    (∀ n t tr g turns body, s.tasks[n]? = some t → t.doomed = false →
      t.phase = .ready (.saveEditedSettings g) → s.state.hasEdits g = true →
      (∀ id e, s.state.edit? g id = some e → e.Plain) →
      s.Free (.saveBatch g (s.submission g)) →
      Store.Alone tr s (.saveBatch g (s.submission g)) (.ok body) n turns →
      Updates.EchoedBy (s.submission g) body →
        (∀ u, u ∈ s.submission g ↔ s.state.edit? g u.id = some u.value) ∧
          State.Saved g (s.submission g) s.state (s.after turns).state ∧
          (s.after turns).state.hasEdits g = false ∧
          (s.after turns).state.isGroupSaving g = false ∧
          ∃ xs, (∀ u, u ∈ xs.map Setting.update ↔ u ∈ s.submission g) ∧
            (t.quiet = false → (s.after turns).latest? = some (.done n (.ok (.saved xs))))) ∧
    (∀ n t tr g id e turns body, s.tasks[n]? = some t → t.doomed = false →
      t.phase = .ready (.saveEditedSetting g id) → s.state.edit? g id = some e → e.Plain →
      s.Free (.saveSetting g id e) → Store.Alone tr s (.saveSetting g id e) (.ok body) n turns →
      Update.EchoedBy ⟨id, e⟩ body →
        State.Saved g [⟨id, e⟩] s.state (s.after turns).state ∧
          (s.after turns).state.isSettingSaving g id = false ∧
          ∃ x : Setting, x.update = ⟨id, e⟩ ∧
            (t.quiet = false →
              (s.after turns).latest? = some (.done n (.ok (.setting (some x)))))) ∧
    (∀ n t tr g, s.tasks[n]? = some t → t.doomed = false →
      t.phase = .ready (.saveEditedSettings g) → s.state.hasEdits g = false →
        s.OnlyAnswers n (.saved []) (s.move (.turn tr n))) ∧
    ∀ n t tr g id, s.tasks[n]? = some t → t.doomed = false →
      t.phase = .ready (.saveEditedSetting g id) → s.state.edit? g id = none →
        s.OnlyAnswers n (.setting none) (s.move (.turn tr n)) := by
  intro s
  have hs : s.Tidy := Store.tidy_after name endpoints ms
  have htracked : s.Tracked := Store.tracked_after name endpoints ms
  refine ⟨Update.echoedBy_toJson, Updates.echoedBy_batchBody, ?_, ?_, ?_, ?_⟩
  · intro n t tr g turns body hn hdoomed hphase hedits hplain hfree hturns hechoed
    have hmem := htracked.mem_submission g
    have hsave : s.saveOf? (.saveEditedSettings g) = some (.saveBatch g (s.submission g)) := by
      rw [htracked.saveOf?_saveEditedSettings, if_pos hedits]
    have hsets : s.SetsOut n (.saveBatch g (s.submission g)) .save t.phase :=
      hphase ▸ .saves hsave hfree
    have hsome : s.submission g ≠ [] := by
      intro hnil
      rw [Store.saveOf?, hnil] at hsave
      cases hsave
    obtain ⟨hsaved, hflag, xs, hxs, hanswer⟩ := hs.saved_of_setsOut hn hdoomed hsets hturns rfl
      hechoed (fun u hu => hplain u.id u.value ((hmem u).mp hu)) hsome fun u hu => (hmem u).mp hu
    refine ⟨hmem, hsaved, ?_, hflag, xs, hxs, hanswer⟩
    -- Whatever is edited is submitted, so no edit is left.
    refine State.hasEdits_eq_false fun id => ?_
    by_cases hid : id ∈ (s.submission g).map (·.id)
    · obtain ⟨u, hu, rfl⟩ := List.mem_map.mp hid
      exact hsaved.edits u hu
    · rw [(hsaved.untouched id hid).2.1, Option.eq_none_iff_forall_ne_some]
      intro e he
      exact hid (List.mem_map_of_mem ((hmem ⟨id, e⟩).mpr he))
  · intro n t tr g id e turns body hn hdoomed hphase hedit hplain hfree hturns hechoed
    have hsave : s.saveOf? (.saveEditedSetting g id) = some (.saveSetting g id e) := by
      rw [htracked.saveOf?_saveEditedSetting, hedit, Option.map_some]
    have hsets : s.SetsOut n (.saveSetting g id e) .save t.phase := hphase ▸ .saves hsave hfree
    have hmem : ∀ u ∈ [(⟨id, e⟩ : Update)], u = ⟨id, e⟩ := fun u hu => List.mem_singleton.mp hu
    obtain ⟨hsaved, hflag, xs, hxs, hanswer⟩ := hs.saved_of_setsOut hn hdoomed hsets hturns rfl
      hechoed (fun u hu => (hmem u hu).symm ▸ hplain) (List.cons_ne_nil _ _)
      fun u hu => (hmem u hu).symm ▸ hedit
    refine ⟨hsaved, hflag, ?_⟩
    cases xs with
    | nil => exact absurd ((hxs ⟨id, e⟩).mpr (List.mem_singleton_self _)) List.not_mem_nil
    | cons x rest =>
      exact ⟨x, hmem x.update ((hxs x.update).mp List.mem_cons_self), hanswer⟩
  · intro n t tr g hn hdoomed hphase hedits
    have hnone : s.saveOf? (.saveEditedSettings g) = none := by
      rw [htracked.saveOf?_saveEditedSettings, hedits]
      rfl
    exact Store.onlyAnswers_of_begin hn hdoomed hphase (Store.idles_readEditedIds _ g)
      (Store.begin_of_no_edits hnone)
  · intro n t tr g id hn hdoomed hphase hedit
    have hnone : s.saveOf? (.saveEditedSetting g id) = none := by
      rw [htracked.saveOf?_saveEditedSetting, hedit, Option.map_none]
    exact Store.onlyAnswers_of_begin hn hdoomed hphase (Store.idles_readEditedIds _ g)
      (Store.begin_of_no_edit hnone)

/-- A switch that has been reported and a list of names that has not are edited, and then all edits
are to be saved. -/
def twoEditsToSave : List StoreMove :=
  [.dispatch (.receiveSettings "g" [{ id := "a", value := .bool false }]),
    .dispatch (.edit "g" "b" (.list ["x", "y"])), .dispatch (.edit "g" "a" (.bool true)),
    .spawn (.saveEditedSettings "g") false]

/-- The switch comes back with its label. -/
def echoOfSwitch : Json :=
  .object [("label", .string "Switch"), ("value", .bool true), ("id", .string "a")]

/-- The names come back without an error. -/
def echoOfNames : Json :=
  .object [("id", .string "b"), ("value", .array [.string "x", .string "y"]), ("error", .null)]

/-- Both edits come back, in another order. -/
def echoOfTwoEdits : Json := .object [("update", .array [echoOfSwitch, echoOfNames])]

/-- The batch is sent, and the reply comes later. -/
def echoTurns : List StoreMove :=
  [.turn .later 0, .respond 0 (.ok echoOfTwoEdits), .turn .later 0]

/-- The switch is on and the names are those that were asked for, with edits and without. -/
theorem two_edits_stay_visible :
    let s := (Store.fresh "s" ⟨"", "/groups"⟩).after twoEditsToSave
    let s' := s.after echoTurns
    s.state.value? "g" "a" true = some (.bool true) ∧
      s.state.value? "g" "a" false = some (.bool false) ∧
      s'.state.value? "g" "a" true = some (.bool true) ∧
      s'.state.value? "g" "a" false = some (.bool true) ∧
      s'.state.value? "g" "b" false = some (.list ["x", "y"]) ∧
      s'.state.hasEdits "g" = false ∧ s'.state.isGroupSaving "g" = false := by
  intro s s'
  let names : Update := ⟨"b", .list ["x", "y"]⟩
  let switch : Update := ⟨"a", .bool true⟩
  have hus : s.submission "g" = [names, switch] := rfl
  have hplain : ∀ id e, s.state.edit? "g" id = some e → e.Plain := by
    intro id e he
    have htracked : s.Tracked := Store.tracked_after "s" ⟨"", "/groups"⟩ twoEditsToSave
    have hmem : (⟨id, e⟩ : Update) ∈ [names, switch] := (htracked.mem_submission "g" _).mpr he
    rcases List.mem_pair.mp hmem with hu | hu
    · exact ⟨names.value.toJson, congrArg Update.value hu⟩
    · exact ⟨switch.value.toJson, congrArg Update.value hu⟩
  have hechoed : Updates.EchoedBy (s.submission "g") echoOfTwoEdits := by
    have hswitch : switch.EchoedBy echoOfSwitch := .object (by simp [Keyed.keys]) rfl rfl rfl
    have hnames : names.EchoedBy echoOfNames := .object (by simp [Keyed.keys]) rfl rfl rfl
    rw [hus]
    refine .object (List.nodup_singleton _) rfl ?_ ?_ ?_
    · intro item hitem error herror
      rcases List.mem_pair.mp hitem with rfl | rfl
      · cases herror
      · cases herror
        rfl
    · intro item hitem
      rcases List.mem_pair.mp hitem with rfl | rfl
      · exact ⟨switch, by simp, hswitch⟩
      · exact ⟨names, by simp, hnames⟩
    · intro u hu
      rcases List.mem_pair.mp hu with rfl | rfl
      · exact ⟨echoOfNames, by simp, hnames⟩
      · exact ⟨echoOfSwitch, by simp, hswitch⟩
  have hturns : Store.Alone .later s (.saveBatch "g" (s.submission "g")) (.ok echoOfTwoEdits) 0
      echoTurns := .later .later rfl
  obtain ⟨-, -, hgroup, -⟩ := saved_edits_stay_visible "s" ⟨"", "/groups"⟩ twoEditsToSave
  obtain ⟨-, hsaved, hedits, hflag, -⟩ := hgroup 0 _ .later "g" echoTurns echoOfTwoEdits rfl rfl rfl
    rfl hplain (fun _ _ _ => rfl) hturns hechoed
  refine ⟨rfl, rfl, ?_, ?_, ?_, hedits, hflag⟩
  · rw [hsaved.shown]
    rfl
  · exact hsaved.reported switch (by rw [hus]; simp)
  · exact hsaved.reported names (by rw [hus]; simp)

end RemoteSettings
