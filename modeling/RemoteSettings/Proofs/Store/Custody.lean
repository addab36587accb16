import RemoteSettings.Proofs.Locks.Ownership
import RemoteSettings.Proofs.Locks.Requests
import RemoteSettings.Proofs.Store.Refinement

/-!
# Tasks have the locks that their operations need

Between asking for its lock and giving it back, a task has the very lock that its operation needs,
or is on its way to get it; and the active locks are those that tasks have in hand and those on
their way to tasks.  So what holds of active locks, that exclusive ones exclude, holds of the tasks.

## Main definitions

* `Remote.Needs` — the lock is the one that an operation needs.
* `Board.held` — the locks in the hands of tasks.
* `Board.Custody` — the invariant.

## Main results

* `Custody.step` — every step keeps the invariant.
* `Custody.compatible` — the locks of two tasks are compatible.
-/

namespace RemoteSettings

/-- The lock is the one that an operation needs under the name of a store. -/
def Remote.Needs (op : Remote) (name : String) : Option Lock → Prop
  | some l => l.store = name ∧ op.lock? = some (l.scope, l.mode)
  | none => op.lock? = none

/-- What a task is at agrees with the locks: a ticket was given for the lock that the operation
needs, and a lock in hand is that lock. -/
def Stage.Fits (name : String) (t : LockTable) : Stage → Prop
  | queued ticket op => ticket < t.nextTicket ∧ ∀ w ∈ t.requests, w.ticket = ticket →
      w.store = name ∧ op.lock? = some (w.scope, w.mode)
  | holding op lock => op.Needs name lock
  | awaiting op lock => op.Needs name lock
  | _ => True

/-- What a task is at agrees with the locks whatever moves are made, as none makes a request up. -/
theorem Stage.Fits.mono {name : String} {t t' : LockTable} {st : Stage} (h : st.Fits name t)
    (hext : t.Extends t') : st.Fits name t' := by
  cases st with
  | queued ticket op =>
    refine ⟨Nat.lt_of_lt_of_le h.1 hext.nextTicket_le, fun w hw hticket => ?_⟩
    rcases hext.requests w hw with hw | ⟨hnew, _⟩
    · exact h.2 w hw hticket
    · exact absurd h.1 (by omega)
  | holding op lock => exact h
  | awaiting op lock => exact h
  | _ => trivial

namespace Board

variable {b : Board} {n : Nat}

/-- The locks in the hands of tasks. -/
def held (b : Board) : List Lock := b.stages.filterMap Stage.lock?

/-- The locks in the hands of all tasks but one. -/
def heldByOthers (b : Board) (n : Nat) : List Lock := (b.stages.eraseIdx n).filterMap Stage.lock?

/-- What is read off all stages is what is read off one, and off the others. -/
theorem filterMap_stages_perm {α : Type} (f : Stage → Option α) {st : Stage}
    (h : b.stages[n]? = some st) :
    (b.stages.filterMap f).Perm ((f st).toList ++ (b.stages.eraseIdx n).filterMap f) := by
  obtain ⟨hn, rfl⟩ := List.getElem?_eq_some_iff.mp h
  have hperm := (List.getElem_cons_eraseIdx_perm hn).symm.filterMap f
  rw [List.filterMap_cons] at hperm
  cases hf : f b.stages[n] <;> simpa [hf] using hperm

/-- What is held is what a task has in hand and what the others have. -/
theorem held_perm {st : Stage} (h : b.stages[n]? = some st) :
    b.held.Perm (st.lock?.toList ++ b.heldByOthers n) := filterMap_stages_perm Stage.lock? h

theorem heldByOthers_put (b : Board) (n : Nat) (st : Stage) :
    (b.put n st).heldByOthers n = b.heldByOthers n := by
  rw [heldByOthers, put, List.eraseIdx_set_eq]
  rfl

/-- The invariant: active locks are in the hands of tasks or on their way, tickets are those that
have been given, and what each task is at agrees with the locks. -/
structure Custody (b : Board) : Prop where
  owned : b.locks.Owned b.held
  numbered : b.locks.Numbered
  fits : ∀ st ∈ b.stages, st.Fits b.name b.locks

theorem Custody.fresh (name : String) (endpoints : Endpoints) :
    (Store.fresh name endpoints).board.Custody where
  owned := LockTable.Owned.empty
  numbered := by intro w hw; simp [Store.board, Store.fresh, LockTable.requests] at hw
  fits := by intro st hst; simp [Store.board, Store.fresh] at hst

theorem Custody.fits_of_stage (h : b.Custody) {st : Stage} (hn : b.stages[n]? = some st) :
    st.Fits b.name b.locks := h.fits st (List.mem_of_getElem? hn)

/-- A task comes further and meanwhile the table of locks changes: the locks in the hands of others
have to stay with them. -/
theorem Custody.put (h : b.Custody) {st st' : Stage} {t : LockTable}
    (hn : b.stages[n]? = some st)
    (howned : ∀ rest, b.locks.Owned (st.lock?.toList ++ rest) →
      t.Owned (st'.lock?.toList ++ rest))
    (hext : b.locks.Extends t)
    (hfits : st'.Fits b.name t) : ({ b with locks := t }.put n st').Custody where
  owned := by
    -- Apart from this task nobody's locks change, so they are the same rest before and after.
    have hput : (({ b with locks := t } : Board).put n st').stages[n]? = some st' :=
      stage_put (lt_of_stage hn) st'
    have hperm := held_perm hput
    rw [heldByOthers_put] at hperm
    exact (howned _ (h.owned.perm (held_perm hn))).perm hperm.symm
  numbered := hext.numbered h.numbered
  fits := by
    intro x hx
    rcases List.mem_or_eq_of_mem_set hx with hx | rfl
    · exact (h.fits x hx).mono hext
    · exact hfits

/-- A task comes further with the same lock in hand, if any. -/
theorem Custody.put_of_lock_eq (h : b.Custody) {st st' : Stage} (hn : b.stages[n]? = some st)
    (hlock : st'.lock? = st.lock?) (hfits : st'.Fits b.name b.locks) : (b.put n st').Custody :=
  h.put hn (fun _ hrest => hlock ▸ hrest) (.refl _) hfits

theorem Custody.sendOff (h : b.Custody) (n : Nat) (op : Remote) : (b.sendOff n op).Custody :=
  ⟨h.owned, h.numbered, h.fits⟩

theorem Custody.did (h : b.Custody) (d : Deed) : (b.did d).Custody :=
  ⟨h.owned, h.numbered, h.fits⟩

/-! ### Steps -/

/-- What is granted at once is what the operation needs. -/
theorem Custody.grant (h : b.Custody) {op : Remote} {scope : Scope} {mode : LockMode} {lock : Lock}
    {t : LockTable} (hn : b.stages[n]? = some .idle) (hneeds : op.lock? = some (scope, mode))
    (hacquire : b.locks.acquire b.name scope mode = (.inl lock, t)) :
    ({ b with locks := t }.put n (.holding op (some lock))).Custody := by
  obtain ⟨hc, rfl, rfl⟩ := LockTable.acquire_eq_inl hacquire
  exact h.put hn (fun _ hrest => hrest.grant hc) (LockTable.extends_grant _ _ _ _) ⟨rfl, hneeds⟩

/-- The ticket is new, so the request that was made is the only one that has it. -/
theorem Custody.queue (h : b.Custody) {op : Remote} {scope : Scope} {mode : LockMode} {ticket : Nat}
    {t : LockTable} (hn : b.stages[n]? = some .idle) (hneeds : op.lock? = some (scope, mode))
    (hacquire : b.locks.acquire b.name scope mode = (.inr ticket, t)) :
    ({ b with locks := t }.put n (.queued ticket op)).Custody := by
  have hext := LockTable.extends_acquire b.locks b.name scope mode
  have howned : ∀ rest, b.locks.Owned rest → (b.locks.acquire b.name scope mode).2.Owned rest :=
    fun _ hrest => hrest.acquire_of_conflict (LockTable.acquire_eq_inr hacquire).1
  rw [hacquire] at hext howned
  refine h.put hn howned hext ?_
  obtain ⟨_, rfl, rfl⟩ := LockTable.acquire_eq_inr hacquire
  refine ⟨Nat.lt_succ_self _, fun w hw hticket => ?_⟩
  rcases LockTable.mem_requests_postpone hw with hw | rfl
  · exact absurd (h.numbered w hw) (by omega)
  · exact ⟨rfl, hneeds⟩

/-- What is sent to a ticket is what the operation needs. -/
theorem Custody.collect (h : b.Custody) {ticket : Nat} {op : Remote} {lock : Lock}
    (hn : b.stages[n]? = some (.queued ticket op))
    (hsent : b.locks.sent.get? ticket = some lock) :
    ({ b with locks := (b.locks.collect ticket).2 }.put n (.holding op (some lock))).Custody := by
  refine h.put hn (fun _ hrest => hrest.collect hsent) (LockTable.extends_collect _ _) ?_
  exact (h.fits_of_stage hn).2 _ (LockTable.served_mem_requests hsent) rfl

theorem Custody.abandon (h : b.Custody) {ticket : Nat} {op : Remote}
    (hn : b.stages[n]? = some (.queued ticket op)) :
    ({ b with locks := (b.locks.abandon ticket).1 }.put n .over).Custody :=
  h.put hn (fun _ hrest => hrest.abandonWhile _ ticket) (LockTable.extends_abandonWhile _ _ _)
    trivial

theorem Custody.release (h : b.Custody) {lock : Option Lock}
    (hn : b.stages[n]? = some (.closing lock)) :
    ((b.letGo lock).put n (.closing none)).Custody := by
  cases lock with
  | none => exact h.put_of_lock_eq hn rfl trivial
  | some lock =>
    exact h.put hn (fun _ hrest => hrest.releaseWhile _) (LockTable.extends_releaseWhile _ _ _)
      trivial

/-- **Every step keeps locks where they belong.** -/
theorem Custody.step (b b' : Board) (hstep : b.Step b') (h : b.Custody) : b'.Custody := by
  cases hstep with
  | spawn =>
    have hheld : ({ b with stages := b.stages ++ [.idle] } : Board).held = b.held :=
      List.filterMap_append.trans (List.append_nil _)
    refine ⟨hheld.symm ▸ h.owned, h.numbered, fun st hst => ?_⟩
    rcases List.mem_append.mp hst with hst | hst
    · exact h.fits st hst
    · rw [List.mem_singleton.mp hst]
      trivial
  | skip idle free => exact h.put_of_lock_eq idle rfl free
  | grant idle needs acquired => exact h.grant idle needs acquired
  | queue idle needs acquired => exact h.queue idle needs acquired
  | collect queued sent => exact h.collect queued sent
  | abandon queued => exact h.abandon queued
  | @send _ op lock holding =>
    -- To send a request leaves the locks alone.
    have hneeds : op.Needs b.name lock := h.fits_of_stage holding
    exact (h.sendOff _ op).put_of_lock_eq holding rfl hneeds
  | commit reply awaiting => exact (h.did _).put_of_lock_eq awaiting rfl trivial
  | drop awaiting => exact (h.did _).put_of_lock_eq awaiting rfl trivial
  | release closing => exact h.release closing
  | finish stage settled =>
    refine h.put_of_lock_eq stage ?_ trivial
    rcases settled with rfl | rfl <;> rfl

/-! ### What tasks have in hand -/

/-- The locks of two tasks are compatible. -/
theorem Custody.compatible (h : b.Custody) {m : Nat} (hne : m ≠ n) {st st' : Stage} {l l' : Lock}
    (hm : b.stages[m]? = some st) (hn : b.stages[n]? = some st') (hl : st.lock? = some l)
    (hl' : st'.lock? = some l') : l.Compatible l' := by
  have hheld : b.held.Pairwise Lock.Compatible := by
    have howners := (h.owned.owners.pairwise_iff Lock.Compatible.symm).mpr h.owned.compatible
    exact (List.pairwise_append.mp howners).1
  rw [held, List.pairwise_filterMap, List.pairwise_iff_getElem] at hheld
  -- Locks in hand stand in the order of the tasks, and compatibility is symmetric.
  obtain ⟨hmlt, rfl⟩ := List.getElem?_eq_some_iff.mp hm
  obtain ⟨hnlt, rfl⟩ := List.getElem?_eq_some_iff.mp hn
  rcases Nat.lt_or_gt_of_ne hne with hlt | hlt
  · exact hheld m n hmlt hnlt hlt l hl l' hl'
  · exact (hheld n m hnlt hmlt hlt l' hl' l hl).symm

end Board

end RemoteSettings
