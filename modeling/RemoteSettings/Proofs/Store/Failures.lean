import RemoteSettings.Proofs.Store.BatchSave
import RemoteSettings.Proofs.Store.Conclusion
import RemoteSettings.Proofs.Store.Departure
import RemoteSettings.Proofs.Store.Flags
import RemoteSettings.Proofs.Store.Resolution

/-!
# Failures leave the data as they are

An operation that fails, be it that the request fails or that its reply cannot be read, leaves
groups, settings and edits as they are.  All that it changes is one error, where the operation is
about, and that its flag is down in the end.  A call that is to edit and fails has not edited.

## Main definitions

* `Remote.errorAt?` — where the failure of an operation is recorded.
* `State.Failed` — all that the failure of an operation changes.

## Main results

* `Remote.commit_of_error` — a failure leads to one error, or to none.
* `Tidy.failed` — the failure of an operation changes nothing else.
* `failures_leave_data_intact` — **failures leave the data as they are.**
-/

namespace RemoteSettings

/-! ### What a failure changes -/

/-- Where the failure of an operation is recorded: at the group, or at the setting, that the
operation is about. -/
def Remote.errorAt? (op : Remote) : Option (String × ErrorKey) :=
  op.target?.map fun t => (t.1, State.errorKey t.2)

/-- A failure leads to one error where the operation is about, and to nothing else, unless a part of
a batch succeeded. -/
theorem Remote.commit_of_error {op : Remote} {reply : Reply} {e : Failure}
    (h : (op.commit reply).2 = .error e) (he : e.isPartial = false) :
    (op.commit reply).1 = op.target?.toList.map fun t => .setError t.1 t.2 (some e) := by
  cases op with
  | fetchGroups =>
    rw [commit] at h ⊢
    split at h
    · cases h
    · rfl
  | saveBatch group updates =>
    rw [commit] at h ⊢
    split at h
    · next r _ =>
      -- A reply that can be read fails only in parts.
      rw [batchResult] at h
      split at h
      · cases h
      · cases h
        cases he
    · cases h
      dsimp only
      rw [he]
      rfl
  | _ =>
    rw [commit] at h ⊢
    split at h
    · cases h
    · cases h
      rfl

namespace State

/-- All that the failure of an operation changes: there is one error where the operation is about,
and its flag is down. -/
structure Failed (op : Remote) (e : Failure) (s s' : State) : Prop where
  groups : s'.groups = s.groups
  settings : s'.settings = s.settings
  edits : s'.edits = s.edits
  errors : ∀ h key,
    s'.error? h key = if op.errorAt? = some (h, key) then some e else s.error? h key
  unrecorded : op.errorAt? = none → s'.errors = s.errors
  flags : ∀ f, s'.flag f = if op.flag? = some f then false else s.flag f

end State

namespace Store

variable {s u v : Store} {n : Nat} {op : Remote} {goal : Goal} {reply : Reply} {e : Failure}

theorem Tidy.flag_setFlag (h : s.Tidy) (op : Remote) (up : Bool) (f : Flag) :
    (s.setFlag op up).state.flag f = if op.flag? = some f then up else s.state.flag f := by
  unfold Store.setFlag
  cases hflag : op.flag? with
  | none => rfl
  | some g =>
    dsimp only
    rw [h.dispatch_state, State.flag_reduce]
    simp only [Action.flagMove?, Option.some_inj]

/-- **The failure of an operation changes nothing but one error and its flag.** -/
theorem Tidy.failed (h : s.Tidy) (hresult : (op.commit reply).2 = .error e)
    (he : e.isPartial = false) :
    State.Failed op e s.state ((s.dispatchAll (op.commit reply).1).setFlag op false).state := by
  rw [Remote.commit_of_error hresult he]
  cases htarget : op.target? with
  | none =>
    have hflag : op.flag? = none := by
      cases op with
      | fetchGroups => rfl
      | _ => cases htarget
    have hat : op.errorAt? = none := by rw [Remote.errorAt?, htarget]; rfl
    have hsame : ((s.dispatchAll []).setFlag op false).state = s.state := by
      rw [Store.setFlag, hflag]
      rfl
    rw [show (none : Option (String × Option String)).toList.map
      (fun t => Action.setError t.1 t.2 (some e)) = [] from rfl, hsame]
    refine ⟨rfl, rfl, rfl, fun g key => ?_, fun _ => rfl, fun f => ?_⟩
    · rw [hat, if_neg (Option.some_ne_none _).symm]
    · rw [hflag, if_neg (Option.some_ne_none _).symm]
  | some t =>
    obtain ⟨g, id⟩ := t
    have hat : op.errorAt? = some (g, State.errorKey id) := by rw [Remote.errorAt?, htarget]; rfl
    have hstate : (s.dispatch (.setError g id (some e))).state
        = s.state.reduce (s.clock + 1) (.setError g id (some e)) := h.dispatch_state _
    have hflags := sameButFlags_setFlag (s.dispatch (.setError g id (some e))) op false
    have hset : (s.dispatchAll ((some (g, id)).toList.map fun t => .setError t.1 t.2 (some e)))
        = s.dispatch (.setError g id (some e)) := rfl
    rw [hset]
    refine ⟨?_, ?_, ?_, fun h' key => ?_, fun hnone => ?_, fun f => ?_⟩
    · rw [hflags.groups, hstate]
      cases id <;> rfl
    · rw [hflags.settings, hstate]
      cases id <;> rfl
    · rw [hflags.edits, hstate]
      cases id <;> rfl
    · rw [hflags.error?, hstate, State.error?_setError h.kept, hat]
      simp only [Option.some_inj, Prod.mk.injEq]
    · rw [hat] at hnone
      cases hnone
    · rw [(h.dispatch _).flag_setFlag, hstate, State.flag_reduce]
      rfl

/-- That the flag was raised before makes no difference. -/
theorem Tidy.failed_of_raised (h : s.Tidy) {t : State}
    (hfailed : State.Failed op e (s.setFlag op true).state t) : State.Failed op e s.state t := by
  have hflags := sameButFlags_setFlag s op true
  refine ⟨hfailed.groups.trans hflags.groups, hfailed.settings.trans hflags.settings,
    hfailed.edits.trans hflags.edits, fun g key => ?_, fun hnone => ?_, fun f => ?_⟩
  · rw [hfailed.errors, hflags.error?]
  · exact (hfailed.unrecorded hnone).trans hflags.errors
  · rw [hfailed.flags]
    split
    · rfl
    · next hother => rw [h.flag_setFlag, if_neg hother]

/-! ### How a task goes on after a failure -/

theorem like_resolve (s : Store) (c : Nat) (outcome : Except Failure Unit) :
    s.Like (s.resolve c outcome) := by
  rw [resolve_eq]
  exact ⟨rfl, rfl, rfl, rfl, rfl⟩

/-- Whoever is told of a failure answers with it and does nothing else. -/
theorem tell_error (s : Store) (n c : Nat) (f : Failure) (wanted : Followup) :
    s.tell n c (.error f) wanted = (s.tried (.told n c (.error f))).finish n (.error f) := by
  cases wanted <;> rfl

/-- A task whose operation has failed answers with the failure and does nothing else. -/
theorem exists_finish_of_error (s : Store) (n : Nat) (lock : Option Lock) (goal : Goal)
    (hresult : (op.commit reply).2 = .error e) :
    ∃ v : Store, s.complete n op lock goal reply = v.finish n (.error e) ∧
      ((s.dispatchAll (op.commit reply).1).setFlag op false).Like v := by
  have hcommit := like_commitReply s n op lock reply
  cases goal with
  | save =>
    refine ⟨_, ?_, hcommit⟩
    rw [complete_save, hresult]
    rfl
  | resolve c wanted =>
    have htold : ((s.commitReply n op lock reply).resolve c (.error e)).Like
        ((((s.commitReply n op lock reply).resolve c (.error e)).tried
          (.ended n c (.error e))).tried (.told n c (.error e))) := ⟨rfl, rfl, rfl, rfl, rfl⟩
    refine ⟨_, ?_, (hcommit.trans (like_resolve _ c (.error e))).trans htold⟩
    rw [complete_resolve, hresult]
    exact tell_error _ n c e wanted

/-- The commit of a reply that makes its operation fail. -/
theorem Tidy.complete_failed (h : s.Tidy) {quiet : Bool}
    (hquiet : s.tasks[n]?.map (·.quiet) = some quiet) (lock : Option Lock) (goal : Goal)
    (hresult : (op.commit reply).2 = .error e) (he : e.isPartial = false) :
    State.Failed op e s.state (s.complete n op lock goal reply).state ∧
      (quiet = false →
        (s.complete n op lock goal reply).latest? = some (.done n (.error e))) := by
  obtain ⟨v, hfinish, hlike⟩ := exists_finish_of_error s n lock goal hresult
  rw [hfinish]
  refine ⟨?_, fun hspeaks => finish_latest? ?_ _⟩
  · rw [finish_state, hlike.state]
    exact h.failed hresult he
  · rw [hlike.tasks, tasks_setFlag, tasks_dispatchAll, hquiet, hspeaks]

/-- A task that sets out and fails, if nothing interrupts it. -/
theorem Tidy.failed_of_setsOut (h : s.Tidy) {t : Task} {tr : Transport} {ms : List StoreMove}
    (hn : s.tasks[n]? = some t) (hdoomed : t.doomed = false) (hsets : s.SetsOut n op goal t.phase)
    (hms : Alone tr s op reply n ms) (hresult : (op.commit reply).2 = .error e)
    (he : e.isPartial = false) :
    State.Failed op e s.state (s.after ms).state ∧
      (t.quiet = false → (s.after ms).latest? = some (.done n (.error e))) := by
  obtain ⟨v, w, lock, hafter, hidles, hstate, hclock, hquiet⟩ :=
    exists_complete_of_setsOut hn hdoomed hsets hms
  have hv : v.Tidy := hidles.tidy h
  have hw : w.Tidy := (hv.setFlag op true).congr hstate hclock
  obtain ⟨hfailed, hanswer⟩ := hw.complete_failed hquiet lock goal hresult he
  rw [hstate] at hfailed
  rw [hafter, ← hidles.state]
  exact ⟨hv.failed_of_raised hfailed, hanswer⟩

/-- A task whose reply has come and that fails, whatever has happened since it sent its request. -/
theorem Tidy.failed_of_reply (h : s.Tidy) {t : Task} (tr : Transport) {number : Nat}
    {lock : Option Lock} (hn : s.tasks[n]? = some t) (hdoomed : t.doomed = false)
    (hphase : t.phase = .requesting number op lock goal)
    (hreply : s.replies.get? number = some reply) (hresult : (op.commit reply).2 = .error e)
    (he : e.isPartial = false) :
    State.Failed op e s.state (s.move (.turn tr n)).state ∧
      (t.quiet = false → (s.move (.turn tr n)).latest? = some (.done n (.error e))) := by
  let w : Store := { s with line := s.line.erase n, replies := s.replies.erase number }
  have hturn : s.move (.turn tr n) = w.complete n op lock goal reply :=
    turn_of_reply (s := { s with line := s.line.erase n }) tr hn hphase hdoomed hreply
  have hw : w.Tidy := h.congr rfl rfl
  have hquiet : w.tasks[n]?.map (·.quiet) = some t.quiet := congrArg (Option.map (·.quiet)) hn
  rw [hturn]
  exact hw.complete_failed hquiet lock goal hresult he

/-! ### Calls that fail without an operation -/

/-- From one store to another, a task has answered with a failure and nothing else has been done. -/
structure OnlyFails (s : Store) (n : Nat) (f : Failure) (s' : Store) : Prop where
  state : s'.state = s.state
  resolutions : s'.resolutions = s.resolutions
  cells : s'.cells = s.cells
  requests : s'.requests = s.requests
  answer : s.tasks[n]?.map (·.quiet) = some false → s'.latest? = some (.done n (.error f))

theorem onlyFails_finish (s : Store) (n : Nat) (f : Failure) :
    s.OnlyFails n f (s.finish n (.error f)) := by
  refine ⟨finish_state s n _, ?_, ?_, ?_, fun hquiet => finish_latest? hquiet _⟩
  all_goals
    rw [finish_eq]
    rfl

/-- Edits that are not valid are refused before anything is asked. -/
theorem onlyFails_of_invalid {t : Task} (tr : Transport) (hn : s.tasks[n]? = some t)
    (hdoomed : t.doomed = false) {group : String} {updates : Updates} {problem : Updates.Problem}
    (hphase : t.phase = .ready (.editSettings group updates))
    (hinvalid : updates.validate = .error problem) :
    s.OnlyFails n problem.toFailure (s.move (.turn tr n)) := by
  have hturn : s.move (.turn tr n)
      = { s with line := s.line.erase n }.finish n (.error problem.toFailure) := by
    rw [move, turn_ready (s := { s with line := s.line.erase n }) hn hdoomed hphase, begin,
      hinvalid]
  obtain ⟨hstate, hresolutions, hcells, hrequests, hanswer⟩ :=
    onlyFails_finish { s with line := s.line.erase n } n problem.toFailure
  rw [hturn]
  exact ⟨hstate, hresolutions, hcells, hrequests, hanswer⟩

/-- Whoever comes to a key that could not be resolved fails in the same way. -/
theorem onlyFails_of_comes {c : Nat} {wanted : Followup} {f : Failure} (tr : Transport)
    (h : s.Comes n c wanted) (hended : s.outcome? c = some (.error f)) :
    s.OnlyFails n f (s.move (.turn tr n)) := by
  obtain ⟨hstate, hresolutions, hcells, hrequests, hanswer⟩ :=
    onlyFails_finish ({ s with line := s.line.erase n }.tried (.told n c (.error f))) n f
  rw [told_of_comes h hended, tell_error]
  exact ⟨hstate, hresolutions, hcells, hrequests, hanswer⟩

end Store

/-- **Failures leave the data as they are.**  After any run:

* If a task sets out on an operation that nothing interrupts, and the operation fails other than in
  parts, then groups, settings and edits are the same parts as before; the only error that has
  changed is that of what the operation is about, which is the failure, and for the groups there is
  none; the flag of the operation is down; and the failure is the answer.
* The same holds of the turn in which the reply is committed, whatever has happened since the
  request was sent.
* Whoever has answered with a failure has edited nothing.
* If edits are not valid, or if the key that a caller wants is known not to be resolved, then the
  caller's turn leaves the state, what has been resolved and what has been sent as they are, and
  the caller answers with the failure. -/
theorem failures_leave_data_intact (name : String) (endpoints : Endpoints) (ms : List StoreMove) :
    let s := (Store.fresh name endpoints).after ms
    let story := (Store.fresh name endpoints).story (ms.map fun m => (none, m))
    (∀ n t op goal tr reply turns e, s.tasks[n]? = some t → t.doomed = false →
      s.SetsOut n op goal t.phase → Store.Alone tr s op reply n turns →
      (op.commit reply).2 = .error e → e.isPartial = false →
        State.Failed op e s.state (s.after turns).state ∧
          (t.quiet = false → (s.after turns).latest? = some (.done n (.error e)))) ∧
    (∀ n t number op lock goal tr reply e, s.tasks[n]? = some t → t.doomed = false →
      t.phase = .requesting number op lock goal → s.replies.get? number = some reply →
      (op.commit reply).2 = .error e → e.isPartial = false →
        State.Failed op e s.state (s.move (.turn tr n)).state ∧
          (t.quiet = false → (s.move (.turn tr n)).latest? = some (.done n (.error e)))) ∧
    (∀ n f, .happened (.done n (.error f)) ∈ actsOf n story →
      ∀ a, .dispatched a ∈ actsOf n story → a.isEdit = false) ∧
    (∀ n t tr group updates problem, s.tasks[n]? = some t → t.doomed = false →
      t.phase = .ready (.editSettings group updates) → updates.validate = .error problem →
        s.OnlyFails n problem.toFailure (s.move (.turn tr n))) ∧
    ∀ n c wanted f tr, s.Comes n c wanted → s.outcome? c = some (.error f) →
      s.OnlyFails n f (s.move (.turn tr n)) := by
  intro s story
  have hs : s.Tidy := Store.tidy_after name endpoints ms
  refine ⟨?_, ?_, ?_, ?_, ?_⟩
  · intro n t op goal tr reply turns e hn hdoomed hsets hturns hresult he
    exact hs.failed_of_setsOut hn hdoomed hsets hturns hresult he
  · intro n t number op lock goal tr reply e hn hdoomed hphase hreply hresult he
    exact hs.failed_of_reply tr hn hdoomed hphase hreply hresult he
  · intro n f
    exact Store.candid_of_story name endpoints (ms.map fun m => (none, m)) n n f
  · intro n t tr group updates problem hn hdoomed hphase hinvalid
    exact Store.onlyFails_of_invalid tr hn hdoomed hphase hinvalid
  · intro n c wanted f tr hcomes hended
    exact Store.onlyFails_of_comes tr hcomes hended

/-- A setting is to be edited, and the reply to the fetch of it is no setting. -/
def unreadableTurns : List StoreMove :=
  [.turn .later 0, .respond 0 (.ok .null), .turn .later 0]

/-- The edit fails, and the failure is the error of the setting; nothing is edited. -/
theorem unreadable_setting_is_not_edited :
    let s := (Store.fresh "s" ⟨"", "/groups"⟩).after
      [.spawn (.editSetting "g" "a" (.bool true)) false]
    let s' := s.after unreadableTurns
    ∃ e, ((Remote.fetchSetting "g" "a").commit (.ok .null)).2 = .error e ∧
      s'.latest? = some (.done 0 (.error e)) ∧
      s'.state.error? "g" (.setting "a") = some e ∧ s'.state.error? "g" .all = none ∧
      s'.state.edits = s.state.edits := by
  intro s s'
  obtain ⟨e, hresult, he⟩ : ∃ e,
      ((Remote.fetchSetting "g" "a").commit (.ok .null)).2 = .error e ∧ e.isPartial = false :=
    ⟨_, rfl, rfl⟩
  let wanted : Followup := .edit "g" "a" (.bool true)
  let t : Task := { phase := .ready (.editSetting "g" "a" (.bool true)) }
  have hsets : s.SetsOut 0 wanted.key.remote (.resolve (s.cellOf wanted.key).1 wanted) t.phase :=
    .resolves rfl ⟨{}, rfl, rfl, Or.inl rfl⟩ fun _ _ _ => rfl
  have hturns : Store.Alone .later s (.fetchSetting "g" "a") (.ok .null) 0 unreadableTurns :=
    .later .later rfl
  obtain ⟨hoperations, -⟩ := failures_leave_data_intact "s" ⟨"", "/groups"⟩
    [.spawn (.editSetting "g" "a" (.bool true)) false]
  obtain ⟨hfailed, hanswer⟩ : State.Failed (.fetchSetting "g" "a") e s.state s'.state ∧
      (t.quiet = false → s'.latest? = some (.done 0 (.error e))) :=
    hoperations 0 t wanted.key.remote (.resolve (s.cellOf wanted.key).1 wanted) .later (.ok .null)
      unreadableTurns e rfl rfl hsets hturns hresult he
  refine ⟨e, hresult, hanswer rfl, ?_, ?_, hfailed.edits⟩
  · rw [hfailed.errors]
    exact if_pos rfl
  · rw [hfailed.errors]
    exact if_neg (by decide)

end RemoteSettings
