import Mathlib.Data.List.Nodup
import Mathlib.Data.List.Pairwise
import RemoteSettings.Proofs.Locks.Scan
import RemoteSettings.Proofs.Scope

/-!
# Exclusive locks exclude

At every moment, whatever has been asked for, released and given up before, two active locks of one
store that overlap are both shared.  A lock becomes active only by `LockTable.grant`, at once or in
a scan, and only if it is in conflict with no lock that is active *then*, those included that the
same scan has granted before it; so the invariant is about the table alone and a scan keeps it.

Numbers are natural numbers here.  They are what a counter of 64 bits gives as long as fewer than
`2 ^ 64` locks are granted.

## Main definitions

* `Lock.Compatible` — two locks that may be active together.
* `LockTable.Consistent` — the invariant: new numbers, distinct numbers, compatible locks.

## Main results

* `Consistent.move` — every move keeps the invariant.
* `active_locks_exclude` — **after any moves, overlapping active locks are shared.**
-/

namespace RemoteSettings

/-- Two locks may be active together: if they overlap in one store, both are shared. -/
def Lock.Compatible (a b : Lock) : Prop :=
  a.store = b.store → a.scope.overlaps b.scope = true → a.mode = .shared ∧ b.mode = .shared

theorem Lock.Compatible.symm {a b : Lock} (h : a.Compatible b) : b.Compatible a := by
  intro hstore hoverlap
  rw [Scope.overlaps_comm] at hoverlap
  exact (h hstore.symm hoverlap).symm

instance : Std.Symm Lock.Compatible := ⟨fun _ _ => Lock.Compatible.symm⟩

namespace LockTable

/-- The invariant of tables: the next number is new, no number is in use twice, and any two active
locks may be active together. -/
structure Consistent (t : LockTable) : Prop where
  fresh : ∀ l ∈ t.active, l.id < t.nextId
  distinct : (t.active.map (·.id)).Nodup
  compatible : t.active.Pairwise Lock.Compatible

theorem Consistent.empty : Consistent {} where
  fresh := by intro l hl; simp at hl
  distinct := List.nodup_nil
  compatible := List.Pairwise.nil

/-- What waits and what is on its way does not matter to the invariant. -/
theorem Consistent.congr {t t' : LockTable} (h : t.Consistent) (hid : t'.nextId = t.nextId)
    (hactive : t'.active = t.active) : t'.Consistent where
  fresh := by rw [hid, hactive]; exact h.fresh
  distinct := by rw [hactive]; exact h.distinct
  compatible := by rw [hactive]; exact h.compatible

/-! ### Granting and ending -/

/-- A lock without conflict is compatible with every active lock. -/
theorem compatible_nextLock {t : LockTable} {store : String} {scope : Scope} {mode : LockMode}
    (h : t.conflicts store scope mode = false) {l : Lock} (hl : l ∈ t.active) :
    l.Compatible (t.nextLock store scope mode) := by
  intro hstore hoverlap
  have hno : ¬∃ l ∈ t.active, l.store = store ∧ (mode = .exclusive ∨ l.mode = .exclusive) ∧
      l.scope.overlaps scope = true := by
    rw [← conflicts_iff, h]
    exact Bool.false_ne_true
  -- Without a conflict neither of two overlapping locks is exclusive.
  have hshared : ∀ m : LockMode, m ≠ .exclusive → m = .shared := by
    intro m
    cases m <;> simp
  constructor
  · exact hshared _ fun he => hno ⟨l, hl, hstore, Or.inr he, hoverlap⟩
  · exact hshared _ fun he => hno ⟨l, hl, hstore, Or.inl he, hoverlap⟩

theorem Consistent.grant {t : LockTable} (h : t.Consistent) {store : String} {scope : Scope}
    {mode : LockMode} (hc : t.conflicts store scope mode = false) :
    (t.grant store scope mode).2.Consistent where
  fresh := by
    intro l hl
    simp only [grant_eq, List.mem_append, List.mem_singleton] at hl ⊢
    rcases hl with hl | rfl
    · exact Nat.lt_succ_of_lt (h.fresh l hl)
    · exact Nat.lt_succ_self _
  distinct := by
    rw [grant_eq, List.map_append, List.map_singleton, List.nodup_append]
    refine ⟨h.distinct, List.nodup_singleton _, fun id hid id' hid' => ?_⟩
    obtain ⟨l, hl, rfl⟩ := List.mem_map.mp hid
    rw [List.mem_singleton.mp hid', nextLock_id]
    exact Nat.ne_of_lt (h.fresh l hl)
  compatible := by
    rw [grant_eq, List.pairwise_append]
    refine ⟨h.compatible, List.pairwise_singleton _ _, fun l hl l' hl' => ?_⟩
    rw [List.mem_singleton.mp hl']
    exact compatible_nextLock hc hl

theorem Consistent.remove {t : LockTable} (h : t.Consistent) (id : Nat) :
    (t.remove id).Consistent where
  fresh := fun l hl => h.fresh l (mem_remove_active.mp hl).1
  distinct := h.distinct.sublist (List.Sublist.map _ List.filter_sublist)
  compatible := h.compatible.sublist List.filter_sublist

/-! ### Scans and moves -/

theorem Consistent.scan {t : LockTable} (h : t.Consistent) (vanishing : Nat → Bool)
    (ws : List Waiter) : (scan vanishing ws t).1.Consistent := by
  -- The requests that are still to come do not matter: each step is judged by the table alone.
  refine scan_induction (P := fun _ t => t.Consistent) ?_ ?_ ?_ h
  · intro w _ t _ ht
    exact ht.congr rfl rfl
  · intro w _ t hc _ ht
    exact (ht.grant hc).remove t.nextId
  · intro w _ t hc ht
    exact (ht.grant hc).congr rfl rfl

/-- All waiting requests are scanned once a lock has ended, so none waits when the scan begins. -/
theorem Consistent.drained {t : LockTable} (h : t.Consistent) (id : Nat) :
    Consistent { t.remove id with waiting := [] } := (h.remove id).congr rfl rfl

theorem Consistent.releaseWhile {t : LockTable} (h : t.Consistent) (vanishing : Nat → Bool)
    (id : Nat) : (t.releaseWhile vanishing id).1.Consistent := by
  rcases t.releaseWhile_cases vanishing id with heq | ⟨-, heq⟩
  · rw [heq]
    exact (h.drained id).scan vanishing _
  · rw [heq]
    exact h

theorem Consistent.acquire {t : LockTable} (h : t.Consistent) (store : String) (scope : Scope)
    (mode : LockMode) : (t.acquire store scope mode).2.Consistent := by
  cases hc : t.conflicts store scope mode with
  | true =>
    rw [acquire_of_conflict hc]
    exact h.congr rfl rfl
  | false =>
    rw [acquire_of_no_conflict hc]
    exact h.grant hc

theorem Consistent.collect {t : LockTable} (h : t.Consistent) (ticket : Nat) :
    (t.collect ticket).2.Consistent := h.congr rfl rfl

theorem Consistent.abandonWhile {t : LockTable} (h : t.Consistent) (vanishing : Nat → Bool)
    (ticket : Nat) : (t.abandonWhile vanishing ticket).1.Consistent := by
  cases hs : t.sent.get? ticket with
  | some l =>
    rw [abandonWhile_of_sent hs]
    exact (h.collect ticket).releaseWhile vanishing l.id
  | none =>
    rw [abandonWhile_of_not_sent hs]
    exact h.congr rfl rfl

theorem Consistent.move {t : LockTable} (h : t.Consistent) (m : LockMove) :
    (t.move m).Consistent := by
  cases m with
  | acquire store scope mode => exact h.acquire store scope mode
  | collect ticket => exact h.collect ticket
  | release vanishing id => exact h.releaseWhile vanishing id
  | abandon vanishing ticket => exact h.abandonWhile vanishing ticket

theorem Consistent.after {t : LockTable} (h : t.Consistent) (ms : List LockMove) :
    (t.after ms).Consistent :=
  after_induction (P := Consistent) (fun _ m ht => ht.move m) h ms

/-! ### Mutual exclusion -/

/-- Two active locks with different numbers are compatible. -/
theorem Consistent.compatible_of_ne {t : LockTable} (h : t.Consistent) {a b : Lock}
    (ha : a ∈ t.active) (hb : b ∈ t.active) (hne : a.id ≠ b.id) : a.Compatible b := by
  have hab : a ≠ b := fun hab => hne (congrArg Lock.id hab)
  exact h.compatible.forall ha hb hab

/-- **Exclusive locks exclude.**  After any moves from the empty table, whatever is asked for,
released under whatever number, collected and given up, and whichever waiters vanish, active locks
have distinct numbers, and two of them in one store of which one has a path that is a prefix of the
other's are both shared. -/
theorem active_locks_exclude (ms : List LockMove) :
    (((after {} ms).active.map (·.id)).Nodup) ∧
      ∀ a ∈ (after {} ms).active, ∀ b ∈ (after {} ms).active, a.id ≠ b.id →
        a.store = b.store →
        (a.scope.segments <+: b.scope.segments ∨ b.scope.segments <+: a.scope.segments) →
        a.mode = .shared ∧ b.mode = .shared := by
  have h : (after {} ms).Consistent := Consistent.empty.after ms
  refine ⟨h.distinct, fun a ha b hb hne hstore hprefix => ?_⟩
  exact h.compatible_of_ne ha hb hne hstore (Scope.overlaps_iff.mpr hprefix)

/-- An exclusive lock, and three requests that its release serves in one scan, during which the
first waiter vanishes. -/
def crowd : List LockMove :=
  [.acquire "s" ⟨["a"]⟩ .exclusive, .acquire "s" ⟨["a"]⟩ .exclusive, .acquire "s" ⟨["a"]⟩ .shared,
    .acquire "s" ⟨["a", "b"]⟩ .shared, .release (· == 0) 0]

/-- In the crowd, a lock on a scope and one on a scope below it are active together, and both are
shared. -/
theorem crowd_shares :
    ∃ a ∈ (after {} crowd).active, ∃ b ∈ (after {} crowd).active, a.id ≠ b.id ∧
      a.store = b.store ∧ a.scope.segments <+: b.scope.segments ∧
      a.mode = .shared ∧ b.mode = .shared := by
  have ha : (⟨2, "s", ⟨["a"]⟩, .shared⟩ : Lock) ∈ (after {} crowd).active := by decide
  have hb : (⟨3, "s", ⟨["a", "b"]⟩, .shared⟩ : Lock) ∈ (after {} crowd).active := by decide
  have hprefix : ["a"] <+: ["a", "b"] := by decide
  exact ⟨_, ha, _, hb, by decide, rfl, hprefix,
    (active_locks_exclude crowd).2 _ ha _ hb (by decide) rfl (Or.inl hprefix)⟩

end LockTable

end RemoteSettings
