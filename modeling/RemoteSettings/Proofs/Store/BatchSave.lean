import RemoteSettings.Proofs.BatchReply
import RemoteSettings.Proofs.State.Batch
import RemoteSettings.Proofs.Store.Alone
import RemoteSettings.Proofs.Store.Tidy

/-!
# The outcome of a batch save

A batch that nothing interrupts either has a reply that can be read, and then each of its settings
is settled by itself, or it has none, and then the failure is an error of the whole group.  A
failure that says itself that a part of a batch succeeded is never an error of the group, even if it
does not come from a reply.

## Main results

* `Tidy.settled` — a reply to a batch settles its settings.
* `batch_save_outcome` — **what a batch save answers, and what it does to the state.**
-/

namespace RemoteSettings

open State (Refused Received Settled Unread SameButFlags)

namespace Store

variable {s : Store}

/-! ### The commit of a batch -/

theorem sameButFlags_setFlag (s : Store) (op : Remote) (up : Bool) :
    SameButFlags s.state (s.setFlag op up).state := by
  unfold setFlag
  split
  · rw [dispatch]
    split
    · exact ⟨rfl, rfl, rfl, rfl⟩
    · exact State.sameButFlags_setSaving _ _ _ _ _
  · exact ⟨rfl, rfl, rfl, rfl⟩

theorem Tidy.setFlag (h : s.Tidy) (op : Remote) (up : Bool) : (s.setFlag op up).Tidy := by
  unfold Store.setFlag
  split
  · exact h.dispatch _
  · exact h

theorem dispatchAll_append (s : Store) (as bs : List Action) :
    s.dispatchAll (as ++ bs) = (s.dispatchAll as).dispatchAll bs := List.foldl_append

theorem dispatchAll_singleton (s : Store) (a : Action) : s.dispatchAll [a] = s.dispatch a := rfl

/-- Each setting that was refused has its error in the end. -/
theorem Tidy.refused (h : s.Tidy) (g : String) (failed : List RejectedSetting) :
    let u := s.dispatchAll
      (failed.map fun f => .setError g (some f.id) (some (.rejected none f.rejection)))
    u.Tidy ∧ Refused g failed s.state u.state := by
  induction failed generalizing s with
  | nil => exact ⟨h, .nil g s.state⟩
  | cons f failed ih =>
    have hfirst := State.refused_reduce h.kept (s.clock + 1) g f
    rw [← h.dispatch_state] at hfirst
    obtain ⟨htidy, hrest⟩ := ih (h.dispatch _)
    exact ⟨htidy, hfirst.cons hrest⟩

/-- A reply to a batch settles its settings. -/
theorem Tidy.settled (h : s.Tidy) (g : String) (r : BatchReply) :
    Settled g r s.state (s.dispatchAll (Remote.commitBatch g r)).state := by
  obtain ⟨htidy, hrefused⟩ := h.refused g r.failed
  rw [Remote.commitBatch, dispatchAll_append]
  refine .of_refused hrefused ?_
  split
  · next hempty =>
    rw [List.isEmpty_iff.mp hempty]
    exact .nil g _
  · rw [dispatchAll_singleton, htidy.dispatch_state]
    exact State.received_reduce htidy.kept _ g r.updated

/-- Without a reply that can be read, the failure is an error of the group, unless it is that of a
part of a batch. -/
theorem Tidy.unread (h : s.Tidy) (g : String) (e : Failure) :
    Unread g e s.state
      (s.dispatchAll (if e.isPartial then [] else [.setError g none (some e)])).state := by
  split
  · next he => exact .of_partial he g s.state
  · next he =>
    rw [dispatchAll_singleton, h.dispatch_state]
    exact State.unread_reduce h.kept (Bool.eq_false_iff.mpr he) _ g

/-! ### A batch from its request to its answer -/

/-- A batch that nothing interrupts commits its reply to the state from which it sets out, but for
saving flags. -/
theorem exists_commit_of_batch {g : String} {us : List Update} {tr : Transport} {reply : Reply}
    {n : Nat} {t : Task} {turns : List StoreMove} (hs : s.Tidy) (hn : s.tasks[n]? = some t)
    (hdoomed : t.doomed = false) (hquiet : t.quiet = false)
    (hpoised : s.Poised (.saveBatch g us) t.phase)
    (hturns : Alone tr s (.saveBatch g us) reply n turns) :
    let result := (Remote.saveBatch g us).commit reply
    let s' := s.after turns
    s'.latest? = some (.done n (result.2.map .saved)) ∧
      ∃ u : Store, u.Tidy ∧ SameButFlags s.state u.state ∧
        SameButFlags (u.dispatchAll result.1).state s'.state := by
  intro result s'
  let op := Remote.saveBatch g us
  obtain ⟨u, lock, hafter, hstate, hclock, hstill⟩ :=
    exists_complete_of_alone hn hdoomed hpoised hturns
  have hs' : s' = u.complete n op lock .save reply := hafter
  rw [hquiet] at hstill
  -- The flag goes up before the reply is committed, and falls after it.
  have hup := sameButFlags_setFlag s op true
  rw [← hstate] at hup
  refine ⟨?_, u, (hs.setFlag op true).congr hstate hclock, hup, ?_⟩
  · rw [hs']
    exact complete_save_latest? hstill op lock reply
  · rw [hs', complete_save_state]
    exact sameButFlags_setFlag _ op false

end Store

/-- **The outcome of a batch save.**  After any run, let a task be about to send the request of a
batch: it begins to work on the call and the lock can be had at once, or it has waited for the lock
and the lock has been sent to it.  It has not been cancelled, its caller is told how it ends, and
nothing else happens until then.

* If the request fails, or if its reply cannot be read, then that is the answer, and it becomes an
  error of the group, unless it is itself the failure of a part of a batch.
* Otherwise the reply has one entry for each of its items, the answer is the settings that were
  saved, or those that were refused if there are any, and the settings of the reply are settled. -/
theorem batch_save_outcome (name : String) (endpoints : Endpoints) (ms : List StoreMove)
    (g : String) (us : List Update) (n : Nat) (t : Task) (tr : Transport) (reply : Reply)
    (turns : List StoreMove) :
    let s := (Store.fresh name endpoints).after ms
    s.tasks[n]? = some t → t.doomed = false → t.quiet = false →
    s.Poised (.saveBatch g us) t.phase →
    Store.Alone tr s (.saveBatch g us) reply n turns →
    let s' := s.after turns
    let answers := fun answer => s'.latest? = some (.done n answer)
    (∀ e, (reply = .error e ∨ ∃ body c, reply = .ok body ∧ BatchReply.decode body = .error c ∧
          e = .ofComplaint c) →
        answers (.error e) ∧ Unread g e s.state s'.state) ∧
      ∀ body r, reply = .ok body → BatchReply.decode body = .ok r →
        List.Forall₂ BatchReply.Entry.Reads (BatchReply.items body) r.entries ∧
          (r.failed = [] → answers (.ok (.saved r.updated))) ∧
          (r.failed ≠ [] → answers (.error (.partialBatch r.failed))) ∧
          Settled g r s.state s'.state := by
  intro s hn hdoomed hquiet hpoised hturns s' answers
  have hs : s.Tidy := Store.tidy_after name endpoints ms
  obtain ⟨hanswer, u, hu, hbefore, hafter⟩ :=
    Store.exists_commit_of_batch hs hn hdoomed hquiet hpoised hturns
  refine ⟨?_, ?_⟩
  · intro e he
    have hdecode : Remote.decodeReply BatchReply.decode reply = .error e := by
      rcases he with rfl | ⟨body, c, rfl, hc, rfl⟩
      · rfl
      · rw [Remote.decodeReply, Except.bind, hc]
        rfl
    simp only [Remote.commit, hdecode] at hanswer hafter
    exact ⟨hanswer, (hu.unread g e).congr hbefore hafter⟩
  · rintro body r rfl hr
    have hdecode : Remote.decodeReply BatchReply.decode (.ok body) = .ok r := by
      rw [Remote.decodeReply, Except.bind, hr]
      rfl
    simp only [Remote.commit, hdecode] at hanswer hafter
    refine ⟨BatchReply.reads_of_decode hr, ?_, ?_, (hu.settled g r).congr hbefore hafter⟩
    · intro hfailed
      rw [Remote.batchResult, hfailed] at hanswer
      exact hanswer
    · intro hfailed
      rw [Remote.batchResult, if_neg (by simpa using hfailed)] at hanswer
      exact hanswer

/-- Two settings are edited, and then a batch is to be saved. -/
def twoEdits : List StoreMove :=
  [.dispatch (.edit "g" "a" (.bool true)), .dispatch (.edit "g" "b" (.bool true)),
    .spawn (.saveSettings "g" (.list [])) false]

/-- One setting is saved, the other is refused. -/
def halfRefused : Json :=
  .object [("update", .array
    [.object [("id", .string "b"), ("error", .object [("code", .string "no")])],
      .object [("id", .string "a"), ("value", .bool true)]])]

/-- The batch is sent, and the reply comes later. -/
def halfRefusedTurns : List StoreMove :=
  [.turn .later 0, .respond 0 (.ok halfRefused), .turn .later 0]

/-- The setting that was saved has its value and no edit; the one that was refused has its error and
keeps its edit. -/
theorem half_refused_batch_settles :
    let s := (Store.fresh "s" ⟨"", "/groups"⟩).after twoEdits
    let s' := s.after halfRefusedTurns
    s'.latest? = some (.done 0 (.error (.partialBatch [⟨"b", { code := "no" }⟩]))) ∧
      (s'.state.setting? "g" "a").map (·.value) = some { id := "a", value := .bool true } ∧
      s'.state.edit? "g" "a" = none ∧
      s'.state.edit? "g" "b" = some (.bool true) ∧
      s'.state.error? "g" (.setting "b") = some (.rejected none { code := "no" }) := by
  intro s s'
  have hdecode : BatchReply.decode halfRefused
      = .ok ⟨[.failed ⟨"b", { code := "no" }⟩, .updated { id := "a", value := .bool true }]⟩ := by
    rfl
  have hedit : s.state.edit? "g" "b" = some (.bool true) := rfl
  have hpoised : s.Poised (.saveBatch "g" []) (.ready (.saveSettings "g" (.list []))) :=
    .begins rfl fun _ _ _ => rfl
  have hturns : Store.Alone .later s (.saveBatch "g" []) (.ok halfRefused) 0 halfRefusedTurns :=
    .later .later rfl
  obtain ⟨-, hreply⟩ := batch_save_outcome "s" ⟨"", "/groups"⟩ twoEdits "g" [] 0 _ .later
    (.ok halfRefused) halfRefusedTurns rfl rfl rfl hpoised hturns
  obtain ⟨-, -, hanswer, hsettled⟩ := hreply halfRefused _ rfl hdecode
  obtain ⟨⟨x, hx, hvalue⟩, hnone, -⟩ := hsettled.saved "a" (by simp [BatchReply.updated])
  obtain ⟨-, hkept, f, hf, herror⟩ :=
    hsettled.refused "b" (by simp [BatchReply.updated]) (by simp [BatchReply.failed])
  refine ⟨hanswer (by simp [BatchReply.failed]), ?_, hnone, hkept.trans hedit, ?_⟩
  · rw [hvalue, ← hx]
    rfl
  · rw [herror]
    cases hf
    rfl

/-- A failure of a part of a batch is no error of the group even if it is the request that fails so,
though it is the answer. -/
theorem partial_failure_of_request_is_no_group_error :
    let e := Failure.partialBatch [⟨"a", { code := "no" }⟩]
    let tr : Transport := fun _ _ => some (.error e)
    let s := (Store.fresh "s" ⟨"", "/groups"⟩).after [.spawn (.saveSettings "g" (.list [])) false]
    let s' := s.after [.turn tr 0]
    s.Poised (.saveBatch "g" []) (.ready (.saveSettings "g" (.list []))) ∧
      Store.Alone tr s (.saveBatch "g" []) (.error e) 0 [.turn tr 0] ∧
      s'.latest? = some (.done 0 (.error e)) ∧ s'.state.error? "g" .all ≠ some e := by
  intro e tr s s'
  have hpoised : s.Poised (.saveBatch "g" []) (.ready (.saveSettings "g" (.list []))) :=
    .begins rfl fun _ _ _ => rfl
  have hturns : Store.Alone tr s (.saveBatch "g" []) (.error e) 0 [.turn tr 0] := .atOnce rfl
  obtain ⟨hanswer, u, -, hbefore, hafter⟩ :=
    Store.exists_commit_of_batch (Store.tidy_after "s" ⟨"", "/groups"⟩ _) rfl rfl rfl hpoised hturns
  -- Nothing is dispatched but the rise and the fall of the flag.
  have hcommit : s'.state.error? "g" .all = u.state.error? "g" .all := hafter.error? "g" .all
  have herror : s'.state.error? "g" .all = none := hcommit.trans (hbefore.error? "g" .all)
  refine ⟨hpoised, hturns, hanswer, ?_⟩
  rw [herror]
  nofun

end RemoteSettings
