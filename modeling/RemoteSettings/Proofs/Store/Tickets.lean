import RemoteSettings.Proofs.Locks.Tickets
import RemoteSettings.Proofs.Store.Custody

/-!
# Whoever waits for a lock has a ticket

The tickets of those who wait for a lock are the outstanding ones, one for one.  So nobody waits
with a ticket that has been lost, and no lock is sent to nobody.

## Main definitions

* `Phase.ticket?`, `Stage.ticket?`, `Board.tickets` — the tickets of those who wait.
* `Board.Ticketed` — the invariant.

## Main results

* `Ticketed.step` — **every step keeps tickets where they belong.**
* `Ticketed.unique`, `Ticketed.exists_waiting` — nobody else has the ticket of a task, and behind
  every outstanding ticket somebody waits.
-/

namespace RemoteSettings

/-- The ticket with which a task waits for a lock. -/
def Stage.ticket? : Stage → Option Nat
  | queued ticket _ => some ticket
  | _ => none

/-- The ticket with which a task in a phase waits for a lock. -/
def Phase.ticket? : Phase → Option Nat
  | locking ticket _ _ => some ticket
  | _ => none

@[simp] theorem Phase.ticket?_stage (phase : Phase) : phase.stage.ticket? = phase.ticket? := by
  cases phase <;> rfl

namespace Board

variable {b : Board} {n m k : Nat}

/-- The tickets with which tasks wait. -/
def tickets (b : Board) : List Nat := b.stages.filterMap Stage.ticket?

/-- The tickets with which all tasks wait but one. -/
def ticketsOfOthers (b : Board) (n : Nat) : List Nat :=
  (b.stages.eraseIdx n).filterMap Stage.ticket?

theorem tickets_perm {st : Stage} (h : b.stages[n]? = some st) :
    b.tickets.Perm (st.ticket?.toList ++ b.ticketsOfOthers n) := filterMap_stages_perm _ h

theorem ticketsOfOthers_put (b : Board) (n : Nat) (st : Stage) :
    (b.put n st).ticketsOfOthers n = b.ticketsOfOthers n := by
  rw [ticketsOfOthers, put, List.eraseIdx_set_eq]
  rfl

/-- The invariant: a lock stands in the way of each request that waits, and the tickets of those who
wait are the outstanding ones. -/
structure Ticketed (b : Board) : Prop where
  prompt : b.locks.Prompt
  nodup : b.locks.outstanding.Nodup
  owners : b.locks.outstanding.Perm b.tickets

theorem Ticketed.fresh (name : String) (endpoints : Endpoints) :
    (Store.fresh name endpoints).board.Ticketed :=
  ⟨LockTable.Prompt.empty, List.nodup_nil, .refl _⟩

/-- A task comes further and meanwhile the table of locks changes: the tickets of others have to
stay outstanding. -/
theorem Ticketed.put (h : b.Ticketed) {st st' : Stage} {t : LockTable}
    (hn : b.stages[n]? = some st) (hprompt : t.Prompt) (hnodup : t.outstanding.Nodup)
    (howners : ∀ rest, b.locks.outstanding.Perm (st.ticket?.toList ++ rest) →
      t.outstanding.Perm (st'.ticket?.toList ++ rest)) :
    ({ b with locks := t }.put n st').Ticketed where
  prompt := hprompt
  nodup := hnodup
  owners := by
    have hput : (({ b with locks := t } : Board).put n st').stages[n]? = some st' :=
      stage_put (lt_of_stage hn) st'
    have hperm := tickets_perm hput
    rw [ticketsOfOthers_put] at hperm
    exact (howners _ (h.owners.trans (tickets_perm hn))).trans hperm.symm

/-- A task comes further that waits for a lock neither before nor after. -/
theorem Ticketed.put_of_none (h : b.Ticketed) {st st' : Stage} (hn : b.stages[n]? = some st)
    (hst : st.ticket? = none) (hst' : st'.ticket? = none) : (b.put n st').Ticketed := by
  refine h.put hn h.prompt h.nodup fun rest hrest => ?_
  rw [hst']
  rwa [hst] at hrest

/-! ### Steps -/

/-- The ticket of a request that has to wait is new. -/
theorem Ticketed.queue (h : b.Ticketed) (hnumbered : b.locks.Numbered) {op : Remote} {scope : Scope}
    {mode : LockMode} {t : LockTable} (hn : b.stages[n]? = some .idle)
    (hacquire : b.locks.acquire b.name scope mode = (.inr k, t)) :
    ({ b with locks := t }.put n (.queued k op)).Ticketed := by
  have hperm := LockTable.outstanding_acquire hacquire
  have hprompt := h.prompt.acquire b.name scope mode
  rw [hacquire] at hprompt
  obtain ⟨-, hk, -⟩ := LockTable.acquire_eq_inr hacquire
  have hnew : k ∉ b.locks.outstanding := fun hmem =>
    absurd (hnumbered.lt_of_outstanding hmem) (hk ▸ Nat.lt_irrefl _)
  exact h.put hn hprompt (hperm.nodup_iff.mpr (List.nodup_cons.mpr ⟨hnew, h.nodup⟩))
    fun rest hrest => hperm.trans (hrest.cons k)

/-- Whoever waits no longer hands its ticket in. -/
theorem Ticketed.handIn (h : b.Ticketed) {op : Remote} {st' : Stage} {t : LockTable}
    (hn : b.stages[n]? = some (.queued k op)) (hst' : st'.ticket? = none) (hprompt : t.Prompt)
    (hperm : (k :: t.outstanding).Perm b.locks.outstanding) :
    ({ b with locks := t }.put n st').Ticketed := by
  refine h.put hn hprompt (List.nodup_cons.mp (hperm.nodup_iff.mpr h.nodup)).2 fun rest hrest => ?_
  rw [hst']
  exact (hperm.trans hrest).cons_inv

/-- Whoever waits has a ticket that is outstanding. -/
theorem Ticketed.mem_outstanding (h : b.Ticketed) {st : Stage} (hn : b.stages[n]? = some st)
    (hk : st.ticket? = some k) : k ∈ b.locks.outstanding :=
  h.owners.mem_iff.mpr (List.mem_filterMap.mpr ⟨st, List.mem_of_getElem? hn, hk⟩)

/-- **Every step keeps tickets where they belong.** -/
theorem Ticketed.step (b b' : Board) (hstep : b.Step b') (hcustody : b.Custody) (h : b.Ticketed) :
    b'.Ticketed := by
  cases hstep with
  | spawn =>
    have htickets : ({ b with stages := b.stages ++ [.idle] } : Board).tickets = b.tickets :=
      List.filterMap_append.trans (List.append_nil _)
    exact ⟨h.prompt, h.nodup, htickets.symm ▸ h.owners⟩
  | skip idle free => exact h.put_of_none idle rfl rfl
  | grant idle needs acquired =>
    obtain ⟨hc, -, rfl⟩ := LockTable.acquire_eq_inl acquired
    exact h.put idle (h.prompt.grant hc) h.nodup fun _ hrest => hrest
  | queue idle needs acquired => exact h.queue hcustody.numbered idle acquired
  | @collect n ticket op lock queued sent =>
    exact h.handIn queued rfl (h.prompt.collect ticket) (LockTable.outstanding_collect sent)
  | @abandon n ticket op queued =>
    exact h.handIn queued rfl (h.prompt.abandonWhile _ ticket)
      (LockTable.outstanding_abandon h.nodup (h.mem_outstanding queued rfl))
  | @send n op lock holding =>
    have hsent : (b.sendOff n op).Ticketed := ⟨h.prompt, h.nodup, h.owners⟩
    exact hsent.put_of_none holding rfl rfl
  | @commit n op lock reply awaiting =>
    have hdid : (b.did (.committed n op reply)).Ticketed := ⟨h.prompt, h.nodup, h.owners⟩
    exact hdid.put_of_none awaiting rfl rfl
  | @drop n op lock awaiting =>
    have hdid : (b.did (.dropped n op)).Ticketed := ⟨h.prompt, h.nodup, h.owners⟩
    exact hdid.put_of_none awaiting rfl rfl
  | @release n lock closing =>
    cases lock with
    | none => exact h.put_of_none closing rfl rfl
    | some lock =>
      have hperm := LockTable.outstanding_release b.locks lock.id
      exact h.put closing (h.prompt.releaseWhile _ _) (hperm.nodup_iff.mpr h.nodup)
        fun _ hrest => hperm.trans hrest
  | finish stage settled =>
    refine h.put_of_none stage ?_ rfl
    rcases settled with rfl | rfl <;> rfl

/-! ### Who has a ticket -/

/-- No ticket is in two hands. -/
theorem Ticketed.unique (h : b.Ticketed) {st st' : Stage} (hn : b.stages[n]? = some st)
    (hm : b.stages[m]? = some st') (hk : st.ticket? = some k) (hk' : st'.ticket? = some k) :
    n = m := by
  have hpairs : b.tickets.Nodup := h.owners.nodup_iff.mp h.nodup
  rw [tickets, List.Nodup, List.pairwise_filterMap, List.pairwise_iff_getElem] at hpairs
  obtain ⟨hnlt, rfl⟩ := List.getElem?_eq_some_iff.mp hn
  obtain ⟨hmlt, rfl⟩ := List.getElem?_eq_some_iff.mp hm
  by_contra hne
  rcases Nat.lt_or_gt_of_ne hne with hlt | hlt
  · exact hpairs n m hnlt hmlt hlt k hk k hk' rfl
  · exact hpairs m n hmlt hnlt hlt k hk' k hk rfl

/-- Behind every outstanding ticket somebody waits. -/
theorem Ticketed.exists_waiting (h : b.Ticketed) (hk : k ∈ b.locks.outstanding) :
    ∃ (n : Nat) (st : Stage), b.stages[n]? = some st ∧ st.ticket? = some k := by
  obtain ⟨st, hst, hticket⟩ := List.mem_filterMap.mp (h.owners.mem_iff.mp hk)
  obtain ⟨n, hn⟩ := List.mem_iff_getElem?.mp hst
  exact ⟨n, st, hn, hticket⟩

end Board
end RemoteSettings
