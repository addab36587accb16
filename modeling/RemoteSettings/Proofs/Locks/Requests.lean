import RemoteSettings.Proofs.Keyed
import RemoteSettings.Proofs.Locks.Scan

/-!
# Requests are granted as they were made

A lock that is sent to a ticket has the store, the scope and the mode that were asked for with the
ticket.  For this it is enough to see that no move makes a request up: each request that waits or
has been served after a move was there before, or has just been made with a new ticket.

## Main definitions

* `LockTable.requests` — the requests that wait or have been served, but not collected.
* `LockTable.Extends` — one table comes from another without requests being made up.
* `LockTable.Numbered` — the tickets of all requests have been given.

## Main results

* `extends_acquire`, `extends_collect`, `extends_releaseWhile`, `extends_abandonWhile` — no move
  makes a request up.
* `acquire_eq_inl`, `acquire_eq_inr` — what it means that a lock is granted at once, or not.
-/

namespace RemoteSettings.LockTable

variable {t : LockTable}

/-- The request that a lock was sent for. -/
def served (e : Nat × Lock) : Waiter := ⟨e.1, e.2.store, e.2.scope, e.2.mode⟩

/-- The requests that wait or have been served, but not collected. -/
def requests (t : LockTable) : List Waiter := t.waiting ++ t.sent.map served

theorem mem_requests {w : Waiter} :
    w ∈ t.requests ↔ w ∈ t.waiting ∨ ∃ e ∈ t.sent, served e = w := by
  rw [requests, List.mem_append, List.mem_map]

/-- Whoever finds a lock sent to a ticket has the lock that was asked for. -/
theorem served_mem_requests {ticket : Nat} {l : Lock} (h : t.sent.get? ticket = some l) :
    served (ticket, l) ∈ t.requests :=
  mem_requests.mpr (Or.inr ⟨_, Keyed.mem_of_get? h, rfl⟩)

/-! ### What a scan does to requests -/

theorem mem_requests_scan {vanishing : Nat → Bool} {ws : List Waiter} {w : Waiter}
    (h : w ∈ (scan vanishing ws t).1.requests) : w ∈ ws ∨ w ∈ t.requests := by
  -- The requests still to be scanned and those of the table so far come from those at first.
  have key : ∀ w, (w ∈ ([] : List Waiter) ∨ w ∈ (scan vanishing ws t).1.requests) →
      w ∈ ws ∨ w ∈ t.requests := by
    refine scan_induction (P := fun rest t' =>
      ∀ w, (w ∈ rest ∨ w ∈ t'.requests) → w ∈ ws ∨ w ∈ t.requests) ?_ ?_ ?_ (fun _ hw => hw)
    · -- The request that is scanned waits on.
      rintro w rest t' - ih x (hx | hx)
      · exact ih x (Or.inl (List.mem_cons_of_mem w hx))
      · rcases mem_requests.mp hx with hx | hx
        · rcases List.mem_append.mp hx with hx | hx
          · exact ih x (Or.inr (mem_requests.mpr (Or.inl hx)))
          · exact ih x (Or.inl (List.mem_singleton.mp hx ▸ List.mem_cons_self))
        · exact ih x (Or.inr (mem_requests.mpr (Or.inr hx)))
    · -- Its waiter vanishes, and the request with it.
      rintro w rest t' - - ih x (hx | hx)
      · exact ih x (Or.inl (List.mem_cons_of_mem w hx))
      · exact ih x (Or.inr hx)
    · rintro w rest t' - ih x (hx | hx)
      · exact ih x (Or.inl (List.mem_cons_of_mem w hx))
      · rcases mem_requests.mp hx with hx | ⟨e, he, hx⟩
        · exact ih x (Or.inr (mem_requests.mpr (Or.inl hx)))
        · rcases List.mem_append.mp he with he | he
          · exact ih x (Or.inr (mem_requests.mpr (Or.inr ⟨e, he, hx⟩)))
          · -- The lock that is sent is the one that the request asks for.
            rw [List.mem_singleton.mp he] at hx
            exact ih x (Or.inl (hx ▸ List.mem_cons_self))
  exact key w (Or.inr h)

@[simp] theorem nextTicket_scan (vanishing : Nat → Bool) (ws : List Waiter) (t : LockTable) :
    (scan vanishing ws t).1.nextTicket = t.nextTicket :=
  scan_induction (P := fun _ t' => t'.nextTicket = t.nextTicket)
    (fun _ _ _ _ h => h) (fun _ _ _ _ _ h => h) (fun _ _ _ _ h => h) rfl

/-! ### No request is made up -/

/-- One table comes from another by moves: each of its requests was there before or has a ticket
that has been given since. -/
structure Extends (t t' : LockTable) : Prop where
  nextTicket_le : t.nextTicket ≤ t'.nextTicket
  requests : ∀ w ∈ t'.requests,
    w ∈ t.requests ∨ t.nextTicket ≤ w.ticket ∧ w.ticket < t'.nextTicket

/-- The tickets of all requests have been given. -/
def Numbered (t : LockTable) : Prop := ∀ w ∈ t.requests, w.ticket < t.nextTicket

theorem Extends.numbered {t' : LockTable} (h : t.Extends t') (ht : t.Numbered) : t'.Numbered := by
  intro w hw
  rcases h.requests w hw with hw | ⟨_, hlt⟩
  · exact Nat.lt_of_lt_of_le (ht w hw) h.nextTicket_le
  · exact hlt

theorem Extends.refl (t : LockTable) : t.Extends t := ⟨Nat.le_refl _, fun _ hw => Or.inl hw⟩

theorem Extends.trans {t' t'' : LockTable} (h : t.Extends t') (h' : t'.Extends t'') :
    t.Extends t'' where
  nextTicket_le := Nat.le_trans h.nextTicket_le h'.nextTicket_le
  requests := by
    intro w hw
    have hle := h.nextTicket_le
    have hle' := h'.nextTicket_le
    rcases h'.requests w hw with hw | hnew
    · exact (h.requests w hw).imp_right fun hold => by omega
    · exact Or.inr (by omega)

theorem extends_collect (t : LockTable) (ticket : Nat) : t.Extends (t.collect ticket).2 where
  nextTicket_le := Nat.le_refl _
  requests := by
    intro w hw
    refine Or.inl (mem_requests.mpr ((mem_requests.mp hw).imp_right ?_))
    rintro ⟨e, he, hw⟩
    exact ⟨e, Keyed.mem_of_mem_erase he, hw⟩

theorem extends_releaseWhile (t : LockTable) (vanishing : Nat → Bool) (id : Nat) :
    t.Extends (t.releaseWhile vanishing id).1 := by
  rcases t.releaseWhile_cases vanishing id with heq | ⟨-, heq⟩
  · rw [heq, drain]
    refine ⟨by simp [remove], fun w hw => Or.inl ?_⟩
    rcases mem_requests_scan hw with hw | hw
    · exact mem_requests.mpr (Or.inl hw)
    · exact mem_requests.mpr ((mem_requests.mp hw).imp_left (by simp))
  · rw [heq]
    exact Extends.refl t

theorem extends_abandonWhile (t : LockTable) (vanishing : Nat → Bool) (ticket : Nat) :
    t.Extends (t.abandonWhile vanishing ticket).1 := by
  cases hs : t.sent.get? ticket with
  | some l =>
    rw [abandonWhile_of_sent hs]
    exact (extends_collect t ticket).trans (extends_releaseWhile _ vanishing l.id)
  | none =>
    rw [abandonWhile_of_not_sent hs]
    refine ⟨Nat.le_refl _, fun w hw => Or.inl ?_⟩
    exact mem_requests.mpr ((mem_requests.mp hw).imp_left fun hw => (List.mem_filter.mp hw).1)

/-! ### New requests -/

/-- A lock is granted at once exactly as it was asked for. -/
theorem acquire_eq_inl {store : String} {scope : Scope} {mode : LockMode} {l : Lock}
    {t' : LockTable} (h : t.acquire store scope mode = (.inl l, t')) :
    t.conflicts store scope mode = false ∧ l = t.nextLock store scope mode ∧
      t' = (t.grant store scope mode).2 := by
  cases hc : t.conflicts store scope mode with
  | true =>
    rw [acquire_of_conflict hc] at h
    cases h
  | false =>
    rw [acquire_of_no_conflict hc] at h
    obtain ⟨hl, ht⟩ := Prod.mk.inj h
    exact ⟨rfl, (Sum.inl.inj hl).symm, ht.symm⟩

theorem acquire_eq_inr {store : String} {scope : Scope} {mode : LockMode} {ticket : Nat}
    {t' : LockTable} (h : t.acquire store scope mode = (.inr ticket, t')) :
    t.conflicts store scope mode = true ∧ ticket = t.nextTicket ∧
      t' = { t.postpone ⟨t.nextTicket, store, scope, mode⟩ with
        nextTicket := t.nextTicket + 1 } := by
  cases hc : t.conflicts store scope mode with
  | true =>
    rw [acquire_of_conflict hc] at h
    obtain ⟨hk, ht⟩ := Prod.mk.inj h
    exact ⟨rfl, (Sum.inr.inj hk).symm, ht.symm⟩
  | false =>
    rw [acquire_of_no_conflict hc] at h
    cases h

theorem extends_grant (t : LockTable) (store : String) (scope : Scope) (mode : LockMode) :
    t.Extends (t.grant store scope mode).2 := ⟨Nat.le_refl _, fun _ hw => Or.inl hw⟩

theorem mem_requests_postpone {w w' : Waiter} (h : w' ∈ (t.postpone w).requests) :
    w' ∈ t.requests ∨ w' = w := by
  rcases mem_requests.mp h with hw | hw
  · rcases List.mem_append.mp hw with hw | hw
    · exact Or.inl (mem_requests.mpr (Or.inl hw))
    · exact Or.inr (List.mem_singleton.mp hw)
  · exact Or.inl (mem_requests.mpr (Or.inr hw))

theorem extends_acquire (t : LockTable) (store : String) (scope : Scope) (mode : LockMode) :
    t.Extends (t.acquire store scope mode).2 := by
  cases hc : t.conflicts store scope mode with
  | true =>
    rw [acquire_of_conflict hc]
    refine ⟨Nat.le_succ _, fun w hw => ?_⟩
    rcases mem_requests_postpone hw with hw | rfl
    · exact Or.inl hw
    · exact Or.inr ⟨Nat.le_refl _, Nat.lt_succ_self _⟩
  | false =>
    rw [acquire_of_no_conflict hc]
    exact extends_grant t store scope mode

end RemoteSettings.LockTable
