import RemoteSettings.Locks.Table

/-!
# What a scan does

A scan takes the waiting requests one by one.  A request in conflict waits on; any other is granted,
and its lock is sent unless the waiter vanishes.  Whatever these three steps preserve holds after
the scan, so an invariant of tables is proved from them and the scan is never unfolded again.

## Main definitions

* `LockTable.postpone`, `LockTable.send`, `LockTable.miss` — what becomes of one request.
* `LockMove` — what parties can do to a table, whatever waiters vanish meanwhile.
* `LockTable.after` — the table after a sequence of moves.

## Main results

* `scan_induction` — the induction over the requests of a scan.
* `releaseWhile_cases`, `abandonWhile_of_sent`, `abandonWhile_of_not_sent` — what leads to a scan.
* `after_induction` — the induction over a sequence of moves.
-/

namespace RemoteSettings

namespace LockTable

/-! ### The steps of a scan -/

/-- The lock that a request would get. -/
def nextLock (t : LockTable) (store : String) (scope : Scope) (mode : LockMode) : Lock :=
  ⟨t.nextId, store, scope, mode⟩

/-- A request waits on. -/
def postpone (t : LockTable) (w : Waiter) : LockTable :=
  { t with waiting := t.waiting ++ [w] }

/-- A request is granted and its lock is sent. -/
def send (t : LockTable) (w : Waiter) : LockTable :=
  { t with
    nextId := t.nextId + 1
    active := t.active ++ [t.nextLock w.store w.scope w.mode]
    sent := t.sent ++ [(w.ticket, t.nextLock w.store w.scope w.mode)] }

/-- A request is granted but its waiter has vanished: the lock ends at once. -/
def miss (t : LockTable) (w : Waiter) : LockTable :=
  (t.grant w.store w.scope w.mode).2.remove t.nextId

theorem grant_eq (t : LockTable) (store : String) (scope : Scope) (mode : LockMode) :
    t.grant store scope mode = (t.nextLock store scope mode,
      { t with
        nextId := t.nextId + 1
        active := t.active ++ [t.nextLock store scope mode] }) := rfl

@[simp] theorem nextLock_id (t : LockTable) (store : String) (scope : Scope) (mode : LockMode) :
    (t.nextLock store scope mode).id = t.nextId := rfl

@[simp] theorem mem_remove_active {t : LockTable} {id : Nat} {l : Lock} :
    l ∈ (t.remove id).active ↔ l ∈ t.active ∧ l.id ≠ id := by
  simp [remove]

/-- The new lock of a waiter who vanished is all that ends, if its number was new. -/
theorem miss_active {t : LockTable} {w : Waiter} (h : ∀ l ∈ t.active, l.id < t.nextId) :
    (t.miss w).active = t.active := by
  -- The new lock has a number of its own, so its end takes no other lock away.
  have hkeep : ∀ l ∈ t.active, (l.id != t.nextId) = true := by
    intro l hl
    have := h l hl
    simp only [bne_iff_ne, ne_eq]
    omega
  simp [miss, grant_eq, remove, List.filter_append, List.filter_eq_self.mpr hkeep]

@[simp] theorem miss_sent (t : LockTable) (w : Waiter) : (t.miss w).sent = t.sent := rfl

/-- A request is in conflict with an active lock of its store that overlaps it, if one of the two
is exclusive. -/
theorem conflicts_iff {t : LockTable} {store : String} {scope : Scope} {mode : LockMode} :
    t.conflicts store scope mode = true ↔
      ∃ l ∈ t.active, l.store = store ∧ (mode = .exclusive ∨ l.mode = .exclusive) ∧
        l.scope.overlaps scope = true := by
  simp [conflicts, and_assoc]

/-! ### Induction over a scan -/

/-- **Induction over a scan.**  The predicate is about the requests that are still to be scanned
and the table so far; it has to survive each of the three things that can become of a request. -/
theorem scan_induction {vanishing : Nat → Bool} {P : List Waiter → LockTable → Prop}
    (postpone : ∀ w rest t, t.conflicts w.store w.scope w.mode = true →
      P (w :: rest) t → P rest (t.postpone w))
    (miss : ∀ w rest t, t.conflicts w.store w.scope w.mode = false → vanishing w.ticket = true →
      P (w :: rest) t → P rest (t.miss w))
    (send : ∀ w rest t, t.conflicts w.store w.scope w.mode = false →
      P (w :: rest) t → P rest (t.send w))
    {ws : List Waiter} {t : LockTable} (h : P ws t) : P [] (scan vanishing ws t).1 := by
  -- The scan of the rest starts from the table that the first request leads to.
  induction ws generalizing t with
  | nil => exact h
  | cons w rest ih =>
    rw [scan]
    cases hc : t.conflicts w.store w.scope w.mode with
    | true => exact ih (postpone w rest t hc h)
    | false =>
      simp only [Bool.false_eq_true, if_false]
      cases hv : vanishing w.ticket with
      | true => exact ih (miss w rest t hc hv h)
      | false => exact ih (send w rest t hc h)

/-! ### What leads to a scan -/

theorem releaseWhile_of_mem {t : LockTable} {l : Lock} (h : l ∈ t.active)
    (vanishing : Nat → Bool) :
    t.releaseWhile vanishing l.id = (t.remove l.id).drain vanishing := by
  have : t.active.any (·.id == l.id) = true := List.any_eq_true.mpr ⟨l, h, by simp⟩
  rw [releaseWhile, if_pos this]

/-- An unknown number is ignored. -/
theorem releaseWhile_of_unknown {t : LockTable} {id : Nat} (h : ∀ l ∈ t.active, l.id ≠ id)
    (vanishing : Nat → Bool) : t.releaseWhile vanishing id = (t, []) := by
  have : ¬t.active.any (·.id == id) = true := by
    simpa using h
  rw [releaseWhile, if_neg this]

/-- A release scans the waiting requests after the lock has ended, or is ignored. -/
theorem releaseWhile_cases (t : LockTable) (vanishing : Nat → Bool) (id : Nat) :
    t.releaseWhile vanishing id = (t.remove id).drain vanishing ∨
      (∀ l ∈ t.active, l.id ≠ id) ∧ t.releaseWhile vanishing id = (t, []) := by
  by_cases hid : ∃ l ∈ t.active, l.id = id
  · obtain ⟨l, hl, rfl⟩ := hid
    exact Or.inl (releaseWhile_of_mem hl vanishing)
  · have hunknown : ∀ l ∈ t.active, l.id ≠ id := by simpa using hid
    exact Or.inr ⟨hunknown, releaseWhile_of_unknown hunknown vanishing⟩

/-- To give up a ticket whose lock has been sent is to collect the lock and release it. -/
theorem abandonWhile_of_sent {t : LockTable} {ticket : Nat} {l : Lock}
    (h : t.sent.get? ticket = some l) (vanishing : Nat → Bool) :
    t.abandonWhile vanishing ticket = (t.collect ticket).2.releaseWhile vanishing l.id := by
  rw [abandonWhile, h]
  rfl

theorem abandonWhile_of_not_sent {t : LockTable} {ticket : Nat} (h : t.sent.get? ticket = none)
    (vanishing : Nat → Bool) :
    t.abandonWhile vanishing ticket
      = ({ t with waiting := t.waiting.filter (·.ticket != ticket) }, []) := by
  rw [abandonWhile, h]

theorem acquire_of_conflict {t : LockTable} {store : String} {scope : Scope} {mode : LockMode}
    (h : t.conflicts store scope mode = true) :
    t.acquire store scope mode = (.inr t.nextTicket,
      { t.postpone ⟨t.nextTicket, store, scope, mode⟩ with nextTicket := t.nextTicket + 1 }) := by
  rw [acquire, if_pos h]
  rfl

theorem acquire_of_no_conflict {t : LockTable} {store : String} {scope : Scope} {mode : LockMode}
    (h : t.conflicts store scope mode = false) :
    t.acquire store scope mode
      = (.inl (t.nextLock store scope mode), (t.grant store scope mode).2) := by
  rw [acquire, if_neg (by simp [h])]
  rfl

end LockTable

/-! ### Moves -/

/-- What parties can do to a table.  A release and a ticket given up may lead to a scan, and then
it is also said which waiters vanish just when their lock is sent. -/
inductive LockMove
  | acquire (store : String) (scope : Scope) (mode : LockMode)
  | collect (ticket : Nat)
  | release (vanishing : Nat → Bool) (id : Nat)
  | abandon (vanishing : Nat → Bool) (ticket : Nat)

namespace LockTable

/-- The table after a move. -/
def move (t : LockTable) : LockMove → LockTable
  | .acquire store scope mode => (t.acquire store scope mode).2
  | .collect ticket => (t.collect ticket).2
  | .release vanishing id => (t.releaseWhile vanishing id).1
  | .abandon vanishing ticket => (t.abandonWhile vanishing ticket).1

/-- The table after moves one after another. -/
def after (t : LockTable) (ms : List LockMove) : LockTable := ms.foldl move t

/-- What every move preserves holds after any sequence of moves. -/
theorem after_induction {P : LockTable → Prop} (move : ∀ t m, P t → P (t.move m))
    {t : LockTable} (h : P t) (ms : List LockMove) : P (t.after ms) := by
  induction ms generalizing t with
  | nil => exact h
  | cons m ms ih => exact ih (move t m h)

end LockTable

end RemoteSettings
