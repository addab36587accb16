import RemoteSettings.Proofs.Locks.Ownership
import RemoteSettings.Proofs.Locks.Requests

/-!
# No wake-up is lost

A request waits because a lock is in its way, but that lock may have ended long ago.  What keeps it
waiting is always a lock that is active *now*: locks end only where a scan follows, and a request
that the scan leaves waiting was in conflict with a lock that the scan does not end.  The lock of a
waiter who vanishes in the scan is no such lock, as it ends before the next request is looked at.

## Main definitions

* `Waiter.BlockedBy` — a lock stands in the way of a request.
* `LockTable.Prompt` — the table is consistent, and a lock stands in the way of each request.

## Main results

* `Prompt.move` — every move keeps the invariant.
* `mem_requests_after` — a request stays as it was made until its ticket ends.
* `no_lost_wakeup` — **whoever waits has to, and whoever asked and was not served still waits.**
-/

namespace RemoteSettings

/-- A lock stands in the way of a request: both are about one store, the path of one is a prefix of
the path of the other, and one of the two is exclusive. -/
def Waiter.BlockedBy (w : Waiter) (l : Lock) : Prop :=
  l.store = w.store ∧ (w.mode = .exclusive ∨ l.mode = .exclusive) ∧
    (l.scope.segments <+: w.scope.segments ∨ w.scope.segments <+: l.scope.segments)

namespace LockTable

variable {t : LockTable}

/-- A request is in conflict with the table exactly when an active lock stands in its way. -/
theorem conflicts_iff_blocked {w : Waiter} :
    t.conflicts w.store w.scope w.mode = true ↔ ∃ l ∈ t.active, w.BlockedBy l := by
  simp only [conflicts_iff, Scope.overlaps_iff, Waiter.BlockedBy]

/-- The table is consistent, and an active lock stands in the way of each request that waits. -/
structure Prompt (t : LockTable) : Prop extends t.Consistent where
  blocked : ∀ w ∈ t.waiting, ∃ l ∈ t.active, w.BlockedBy l

theorem Prompt.empty : Prompt {} where
  toConsistent := Consistent.empty
  blocked := by intro w hw; simp at hw

/-- More locks and fewer requests do no harm. -/
theorem blocked_mono {t' : LockTable} (h : ∀ w ∈ t.waiting, ∃ l ∈ t.active, w.BlockedBy l)
    (hwaiting : t'.waiting ⊆ t.waiting) (hactive : t.active ⊆ t'.active) :
    ∀ w ∈ t'.waiting, ∃ l ∈ t'.active, w.BlockedBy l := by
  intro w hw
  obtain ⟨l, hl, hblocked⟩ := h w (hwaiting hw)
  exact ⟨l, hactive hl, hblocked⟩

/-! ### Scans -/

theorem Prompt.postpone (h : t.Prompt) {w : Waiter}
    (hc : t.conflicts w.store w.scope w.mode = true) : (t.postpone w).Prompt where
  toConsistent := h.toConsistent.congr rfl rfl
  blocked := by
    intro w' hw'
    rcases List.mem_append.mp hw' with hw' | hw'
    · exact h.blocked w' hw'
    · rw [List.mem_singleton.mp hw']
      exact conflicts_iff_blocked.mp hc

theorem Prompt.miss (h : t.Prompt) {w : Waiter}
    (hc : t.conflicts w.store w.scope w.mode = false) : (t.miss w).Prompt where
  toConsistent := (h.toConsistent.grant hc).remove t.nextId
  blocked := by
    -- The lock of the waiter who vanished is gone, and all others are still active.
    refine blocked_mono h.blocked (List.Subset.refl _) ?_
    rw [miss_active h.fresh]
    exact List.Subset.refl _

theorem Prompt.grant (h : t.Prompt) {store : String} {scope : Scope} {mode : LockMode}
    (hc : t.conflicts store scope mode = false) : (t.grant store scope mode).2.Prompt where
  toConsistent := h.toConsistent.grant hc
  blocked := blocked_mono h.blocked (List.Subset.refl _) (List.subset_append_left _ _)

theorem Prompt.send (h : t.Prompt) {w : Waiter}
    (hc : t.conflicts w.store w.scope w.mode = false) : (t.send w).Prompt where
  toConsistent := (h.toConsistent.grant hc).congr rfl rfl
  blocked := (h.grant hc).blocked

theorem Prompt.scan (h : t.Prompt) (vanishing : Nat → Bool) (ws : List Waiter) :
    (scan vanishing ws t).1.Prompt :=
  scan_induction (P := fun _ t => t.Prompt) (fun _ _ _ hc ht => ht.postpone hc)
    (fun _ _ _ hc _ ht => ht.miss hc) (fun _ _ _ hc ht => ht.send hc) h

/-! ### Moves -/

/-- The lock that stands in the way of a request may be the one that ends, but a scan starts from a
table in which nothing waits. -/
theorem Prompt.drained (h : t.Prompt) (id : Nat) :
    Prompt { t.remove id with waiting := [] } where
  toConsistent := h.toConsistent.drained id
  blocked := by intro w hw; simp at hw

/-- Whatever waited before a lock ends is scanned once it has ended. -/
theorem Prompt.releaseWhile (h : t.Prompt) (vanishing : Nat → Bool) (id : Nat) :
    (t.releaseWhile vanishing id).1.Prompt := by
  rcases t.releaseWhile_cases vanishing id with heq | ⟨-, heq⟩
  · rw [heq]
    exact (h.drained id).scan vanishing _
  · rw [heq]
    exact h

theorem Prompt.acquire (h : t.Prompt) (store : String) (scope : Scope) (mode : LockMode) :
    (t.acquire store scope mode).2.Prompt := by
  cases hc : t.conflicts store scope mode with
  | true =>
    have hpostponed := h.postpone (w := ⟨t.nextTicket, store, scope, mode⟩) hc
    rw [acquire_of_conflict hc]
    exact ⟨hpostponed.toConsistent.congr rfl rfl, hpostponed.blocked⟩
  | false =>
    rw [acquire_of_no_conflict hc]
    exact h.grant hc

theorem Prompt.collect (h : t.Prompt) (ticket : Nat) : (t.collect ticket).2.Prompt :=
  ⟨h.toConsistent.collect ticket, h.blocked⟩

theorem Prompt.abandonWhile (h : t.Prompt) (vanishing : Nat → Bool) (ticket : Nat) :
    (t.abandonWhile vanishing ticket).1.Prompt := by
  cases hs : t.sent.get? ticket with
  | some l =>
    rw [abandonWhile_of_sent hs]
    exact (h.collect ticket).releaseWhile vanishing l.id
  | none =>
    rw [abandonWhile_of_not_sent hs]
    exact ⟨h.toConsistent.congr rfl rfl,
      blocked_mono h.blocked (List.filter_subset_self _) (List.Subset.refl _)⟩

theorem Prompt.move (h : t.Prompt) (m : LockMove) : (t.move m).Prompt := by
  cases m with
  | acquire store scope mode => exact h.acquire store scope mode
  | collect ticket => exact h.collect ticket
  | release vanishing id => exact h.releaseWhile vanishing id
  | abandon vanishing ticket => exact h.abandonWhile vanishing ticket

theorem Prompt.after (h : t.Prompt) (ms : List LockMove) : (t.after ms).Prompt :=
  after_induction (P := Prompt) (fun _ m ht => ht.move m) h ms

/-! ### Requests between two moments -/

theorem extends_move (t : LockTable) (m : LockMove) : t.Extends (t.move m) := by
  cases m with
  | acquire store scope mode => exact extends_acquire t store scope mode
  | collect ticket => exact extends_collect t ticket
  | release vanishing id => exact extends_releaseWhile t vanishing id
  | abandon vanishing ticket => exact extends_abandonWhile t vanishing ticket

theorem extends_after (t : LockTable) (ms : List LockMove) : t.Extends (t.after ms) :=
  after_induction (P := t.Extends) (fun t' m h => h.trans (extends_move t' m)) (Extends.refl t) ms

theorem numbered_after (ms : List LockMove) : (after {} ms).Numbered :=
  (extends_after {} ms).numbered (by intro w hw; simp [requests] at hw)

/-- A ticket is outstanding until one of several moves ends it. -/
theorem mem_outstanding_after {k : Nat} (h : k ∈ t.outstanding) {ms : List LockMove}
    (hms : ∀ m ∈ ms, ¬m.Ends k) : k ∈ (t.after ms).outstanding := by
  induction ms generalizing t with
  | nil => exact h
  | cons m ms ih =>
    exact ih (mem_outstanding_move h (hms m List.mem_cons_self))
      fun m' hm' => hms m' (List.mem_cons_of_mem m hm')

theorem mem_outstanding_iff_requests {k : Nat} :
    k ∈ t.outstanding ↔ ∃ w ∈ t.requests, w.ticket = k := by
  rw [mem_outstanding]
  constructor
  · rintro (⟨w, hw, hk⟩ | hk)
    · exact ⟨w, mem_requests.mpr (Or.inl hw), hk⟩
    · obtain ⟨e, he, rfl⟩ := List.mem_map.mp hk
      exact ⟨served e, mem_requests.mpr (Or.inr ⟨e, he, rfl⟩), rfl⟩
  · rintro ⟨w, hw, hk⟩
    rcases mem_requests.mp hw with hw | ⟨e, he, rfl⟩
    · exact Or.inl ⟨w, hw, hk⟩
    · exact Or.inr (hk ▸ List.mem_map_of_mem he)

/-- No request with a ticket that has been given is made up. -/
theorem only_request_after {w : Waiter} (hticket : w.ticket < t.nextTicket)
    (honly : ∀ w' ∈ t.requests, w'.ticket = w.ticket → w' = w) (ms : List LockMove) :
    ∀ w' ∈ (t.after ms).requests, w'.ticket = w.ticket → w' = w := by
  intro w' hw' heq
  rcases (extends_after t ms).requests w' hw' with hold | ⟨hnew, -⟩
  · exact honly w' hold heq
  · omega

/-- A request stays as it was made until its ticket ends, if no other has its ticket. -/
theorem mem_requests_after (hn : t.Numbered) {w : Waiter} (hw : w ∈ t.requests)
    (honly : ∀ w' ∈ t.requests, w'.ticket = w.ticket → w' = w) {ms : List LockMove}
    (hms : ∀ m ∈ ms, ¬m.Ends w.ticket) : w ∈ (t.after ms).requests := by
  have hout : w.ticket ∈ t.outstanding := mem_outstanding_iff_requests.mpr ⟨w, hw, rfl⟩
  obtain ⟨w', hw', hticket⟩ := mem_outstanding_iff_requests.mp (mem_outstanding_after hout hms)
  rwa [← only_request_after (hn w hw) honly ms w' hw' hticket]

/-- A request that is the only one with its ticket waits, or a lock just as it asks for has been
sent to it. -/
theorem waits_or_sent {w : Waiter} (hw : w ∈ t.requests)
    (honly : ∀ w' ∈ t.requests, w'.ticket = w.ticket → w' = w) :
    w ∈ t.waiting ∨ ∃ l, t.sent.get? w.ticket = some l ∧ l.store = w.store ∧ l.scope = w.scope ∧
      l.mode = w.mode := by
  rcases mem_requests.mp hw with hwaits | ⟨e, he, rfl⟩
  · exact Or.inl hwaits
  · cases hs : t.sent.get? e.1 with
    | none => exact absurd (List.mem_map_of_mem he) (Keyed.get?_eq_none_iff.mp hs)
    | some l =>
      -- The lock that is found is that of a request with this ticket, and there is only one.
      have hserved : served (e.1, l) = served e := honly _ (served_mem_requests hs) rfl
      obtain ⟨-, hstore, hscope, hmode⟩ := Waiter.mk.inj hserved
      exact Or.inr ⟨l, hs, hstore, hscope, hmode⟩

/-- A request that has to wait is the only one with its ticket. -/
theorem mem_requests_of_acquire (hn : t.Numbered) {store : String} {scope : Scope} {mode : LockMode}
    {k : Nat} {t' : LockTable} (h : t.acquire store scope mode = (.inr k, t')) :
    ⟨k, store, scope, mode⟩ ∈ t'.requests ∧
      ∀ w ∈ t'.requests, w.ticket = k → w = ⟨k, store, scope, mode⟩ := by
  obtain ⟨-, rfl, rfl⟩ := acquire_eq_inr h
  refine ⟨mem_requests.mpr (Or.inl (by simp [postpone])), fun w hw hticket => ?_⟩
  rcases mem_requests_postpone hw with hold | hnew
  · exact absurd hticket (Nat.ne_of_lt (hn w hold))
  · exact hnew

/-! ### No wake-up is lost -/

/-- **No wake-up is lost.**  After any moves from the empty table, whatever is asked for, released
under whatever number, collected and given up, and whichever waiters vanish:

* an active lock stands in the way of each request that waits;
* if no lock is active, no request waits;
* a request that had to wait, and whose ticket has not ended since, waits on as it was made, with an
  active lock in its way, or a lock just as it was asked for has been sent to it. -/
theorem no_lost_wakeup (ms : List LockMove) :
    let t := after {} ms
    (∀ w ∈ t.waiting, ∃ l ∈ t.active, w.BlockedBy l) ∧
      (t.active = [] → t.waiting = []) ∧
      ∀ store scope mode k t', t.acquire store scope mode = (.inr k, t') →
        ∀ ns, (∀ m ∈ ns, ¬m.Ends k) →
          let u := t'.after ns
          let w : Waiter := ⟨k, store, scope, mode⟩
          (w ∈ u.waiting ∧ ∃ l ∈ u.active, w.BlockedBy l) ∨
            ∃ l, u.sent.get? k = some l ∧ l.store = store ∧ l.scope = scope ∧ l.mode = mode := by
  intro t
  have h : t.Prompt := Prompt.empty.after ms
  refine ⟨h.blocked, fun hactive => ?_, ?_⟩
  · rw [List.eq_nil_iff_forall_not_mem]
    intro w hw
    obtain ⟨l, hl, -⟩ := h.blocked w hw
    simp [hactive] at hl
  · intro store scope mode k t' hacquire ns hns u w
    have ht' : t.move (.acquire store scope mode) = t' := congrArg Prod.snd hacquire
    have hn : t'.Numbered := ht' ▸ (extends_move t _).numbered (numbered_after ms)
    have hu : u.Prompt := Prompt.after (ht' ▸ h.move _) ns
    obtain ⟨hw, honly⟩ := mem_requests_of_acquire (numbered_after ms) hacquire
    have hstays : w ∈ u.requests := mem_requests_after hn hw honly hns
    refine (waits_or_sent hstays (only_request_after (hn w hw) honly ns)).imp_left ?_
    exact fun hwaits => ⟨hwaits, hu.blocked w hwaits⟩

/-- An exclusive lock, and a shared request on a scope below it. -/
def handover : List LockMove :=
  [.acquire "s" ⟨["a"]⟩ .exclusive, .acquire "s" ⟨["a", "b"]⟩ .shared]

/-- In the handover an exclusive request joins, and the exclusive lock is released.  The request
waits on, as the lock that the same scan grants before stands in its way; it is served in the end,
and nothing waits any more. -/
theorem handover_wakes :
    let t' := (after {} handover).move (.acquire "s" ⟨["a"]⟩ .exclusive)
    let u := t'.after [.release (fun _ => false) 0]
    let v := t'.after [.release (fun _ => false) 0, .release (fun _ => false) 1]
    (⟨1, "s", ⟨["a"]⟩, .exclusive⟩ ∈ u.waiting ∧
        ∃ l ∈ u.active, Waiter.BlockedBy ⟨1, "s", ⟨["a"]⟩, .exclusive⟩ l) ∧
      (∃ l, v.sent.get? 1 = some l ∧ l.scope = ⟨["a"]⟩ ∧ l.mode = .exclusive) ∧
      (v.move (.release (fun _ => false) 2)).active = [] ∧
      (v.move (.release (fun _ => false) 2)).waiting = [] := by
  intro t' u v
  have hends : ∀ id, ¬(LockMove.release (fun _ => false) id).Ends 1 := by
    rintro id (_ | _ | ⟨-, hvanishing⟩ | _)
    exact Bool.false_ne_true hvanishing
  have hacquire : (after {} handover).acquire "s" ⟨["a"]⟩ .exclusive = (.inr 1, t') := rfl
  have hjoin := (no_lost_wakeup handover).2.2 _ _ _ _ _ hacquire
  refine ⟨?_, ?_, ?_⟩
  · refine (hjoin [.release (fun _ => false) 0] (by simp [hends])).resolve_right ?_
    rintro ⟨l, hl, -⟩
    have hnone : u.sent.get? 1 = none := by decide
    exact absurd (hnone.symm.trans hl) nofun
  · rcases hjoin [.release (fun _ => false) 0, .release (fun _ => false) 1] (by simp [hends])
      with ⟨hwaits, -⟩ | ⟨l, hl, -, hscope, hmode⟩
    · exact absurd hwaits (by decide)
    · exact ⟨l, hl, hscope, hmode⟩
  · have hactive : (v.move (.release (fun _ => false) 2)).active = [] := by decide
    let rest : List LockMove := [.acquire "s" ⟨["a"]⟩ .exclusive, .release (fun _ => false) 0,
      .release (fun _ => false) 1, .release (fun _ => false) 2]
    exact ⟨hactive, (no_lost_wakeup (handover ++ rest)).2.1 hactive⟩

end LockTable

end RemoteSettings
