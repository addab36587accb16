import Mathlib.Data.List.Perm.Basic
import RemoteSettings.Proofs.Keyed
import RemoteSettings.Proofs.Locks.Exclusion

/-!
# Every lock has one owner

A lock that is active is either in somebody's hands or on its way to the waiter it was granted for,
and in one place only.  It passes from the table to the waiter when it is collected, and back when
it is released; a waiter who gives up, or vanishes just when the lock is sent, makes it end.  As no
number is given twice, a lock that has ended stays ended, and to release it again does nothing.

## Main definitions

* `LockTable.Owned held` — the active locks are those in `held` and those on their way.
* `LockTable.outstanding` — the tickets that wait or that a lock is on its way to.
* `Holding` — a table and the locks in somebody's hands; `Holding.move`, `Holding.after`.
* `Holding.Honest` — nobody releases a lock that is still on its way, as nobody has its number.

## Main results

* `Owned.acquire`, `Owned.collect`, `Owned.releaseWhile`, `Owned.abandonWhile` — how locks change
  hands.
* `locks_owned_once` — **no lock is leaked, owned twice or ended twice.**
-/

namespace RemoteSettings

/-- In a list of locks with distinct numbers the first has another number than the rest. -/
theorem id_ne_of_nodup {l l' : Lock} {ls : List Lock} (h : ((l :: ls).map (·.id)).Nodup)
    (hl' : l' ∈ ls) : l'.id ≠ l.id := by
  have hnot : l.id ∉ ls.map (·.id) := (List.nodup_cons.mp h).1
  intro heq
  rw [← heq] at hnot
  exact hnot (List.mem_map_of_mem hl')

namespace LockTable

/-- A table is consistent and its active locks are, one for one, those in somebody's hands and those
on their way. -/
structure Owned (t : LockTable) (held : List Lock) : Prop extends t.Consistent where
  owners : (held ++ t.sent.values).Perm t.active

variable {t : LockTable} {held : List Lock}

theorem Owned.empty : Owned {} [] where
  toConsistent := Consistent.empty
  owners := List.Perm.refl _

theorem Owned.perm (h : t.Owned held) {held' : List Lock} (hp : held.Perm held') :
    t.Owned held' where
  toConsistent := h.toConsistent
  owners := (hp.symm.append_right _).trans h.owners

theorem Owned.mem_active (h : t.Owned held) {l : Lock} (hl : l ∈ held) : l ∈ t.active :=
  h.owners.subset (List.mem_append_left _ hl)

theorem Owned.distinct_owners (h : t.Owned held) :
    ((held ++ t.sent.values).map (·.id)).Nodup :=
  (h.owners.map _).nodup_iff.mpr h.distinct

/-! ### How locks change hands -/

theorem Owned.grant (h : t.Owned held) {store : String} {scope : Scope} {mode : LockMode}
    (hc : t.conflicts store scope mode = false) :
    (t.grant store scope mode).2.Owned (t.nextLock store scope mode :: held) where
  toConsistent := h.toConsistent.grant hc
  owners := by
    rw [grant_eq]
    exact (h.owners.cons _).trans (List.perm_append_singleton _ _).symm

theorem Owned.send (h : t.Owned held) {w : Waiter}
    (hc : t.conflicts w.store w.scope w.mode = false) : (t.send w).Owned held where
  toConsistent := (h.toConsistent.grant hc).congr rfl rfl
  owners := by
    -- The new lock is the last that is active and the last on its way.
    have hvalues : (t.send w).sent.values
        = t.sent.values ++ [t.nextLock w.store w.scope w.mode] := List.map_append
    rw [hvalues, ← List.append_assoc]
    exact h.owners.append_right _

theorem Owned.miss (h : t.Owned held) {w : Waiter}
    (hc : t.conflicts w.store w.scope w.mode = false) : (t.miss w).Owned held where
  toConsistent := (h.toConsistent.grant hc).remove t.nextId
  owners := by
    -- Nobody ever has the new lock, and it is active no more.
    rw [miss_active h.fresh, miss_sent]
    exact h.owners

theorem Owned.scan (h : t.Owned held) (vanishing : Nat → Bool) (ws : List Waiter) :
    (scan vanishing ws t).1.Owned held := by
  refine scan_induction (P := fun _ t => t.Owned held) ?_ ?_ ?_ h
  · intro w _ t _ ht
    exact ⟨ht.toConsistent.congr rfl rfl, ht.owners⟩
  · intro w _ t hc _ ht
    exact ht.miss hc
  · intro w _ t hc ht
    exact ht.send hc

theorem Owned.collect (h : t.Owned held) {ticket : Nat} {l : Lock}
    (hl : t.sent.get? ticket = some l) : (t.collect ticket).2.Owned (l :: held) where
  toConsistent := h.toConsistent.collect ticket
  owners := by
    -- The lock leaves those on their way and comes to those in hand; it stays active.
    have hperm : (l :: (t.sent.erase ticket).values).Perm t.sent.values :=
      Keyed.values_perm_erase hl
    have hmiddle : (l :: held ++ (t.sent.erase ticket).values).Perm
        (held ++ l :: (t.sent.erase ticket).values) := List.perm_middle.symm
    exact (hmiddle.trans (hperm.append_left held)).trans h.owners

/-- A lock in somebody's hands ends when it is released, and everybody else keeps theirs. -/
theorem Owned.remove {l : Lock} (h : t.Owned (l :: held)) : (t.remove l.id).Owned held where
  toConsistent := h.toConsistent.remove l.id
  owners := by
    -- Numbers are distinct, so the end of this lock takes no other one away.
    have hother : ∀ l' ∈ held ++ t.sent.values, (l'.id != l.id) = true :=
      fun l' hl' => bne_iff_ne.mpr (id_ne_of_nodup h.distinct_owners hl')
    have hfilter := h.owners.filter (·.id != l.id)
    rw [List.cons_append, List.filter_cons_of_neg (by simp),
      List.filter_eq_self.mpr hother] at hfilter
    exact hfilter

theorem Owned.releaseWhile {l : Lock} (h : t.Owned (l :: held)) (vanishing : Nat → Bool) :
    (t.releaseWhile vanishing l.id).1.Owned held := by
  have hdrained : Owned { t.remove l.id with waiting := [] } held :=
    ⟨h.toConsistent.drained l.id, h.remove.owners⟩
  rw [releaseWhile_of_mem (h.mem_active List.mem_cons_self)]
  exact hdrained.scan vanishing _

theorem Owned.abandonWhile (h : t.Owned held) (vanishing : Nat → Bool) (ticket : Nat) :
    (t.abandonWhile vanishing ticket).1.Owned held := by
  cases hs : t.sent.get? ticket with
  | some l =>
    rw [abandonWhile_of_sent hs]
    exact (h.collect hs).releaseWhile vanishing
  | none =>
    rw [abandonWhile_of_not_sent hs]
    exact ⟨h.toConsistent.congr rfl rfl, h.owners⟩

theorem Owned.acquire_of_conflict (h : t.Owned held) {store : String} {scope : Scope}
    {mode : LockMode} (hc : t.conflicts store scope mode = true) :
    (t.acquire store scope mode).2.Owned held := by
  rw [LockTable.acquire_of_conflict hc]
  exact ⟨h.toConsistent.congr rfl rfl, h.owners⟩

theorem Owned.acquire_of_no_conflict (h : t.Owned held) {store : String} {scope : Scope}
    {mode : LockMode} (hc : t.conflicts store scope mode = false) :
    (t.acquire store scope mode).2.Owned (t.nextLock store scope mode :: held) := by
  rw [LockTable.acquire_of_no_conflict hc]
  exact h.grant hc

/-! ### Numbers are not given again -/

/-- One table comes from another by moves: what is active in it was active before, or has a number
that had not been given then. -/
structure Follows (t t' : LockTable) : Prop where
  nextId_le : t.nextId ≤ t'.nextId
  active : ∀ l ∈ t'.active, l ∈ t.active ∨ t.nextId ≤ l.id

theorem Follows.refl (t : LockTable) : t.Follows t := ⟨Nat.le_refl _, fun _ hl => Or.inl hl⟩

theorem Follows.trans {t t' t'' : LockTable} (h : t.Follows t') (h' : t'.Follows t'') :
    t.Follows t'' where
  nextId_le := Nat.le_trans h.nextId_le h'.nextId_le
  active := by
    intro l hl
    rcases h'.active l hl with hl' | hid
    · exact h.active l hl'
    · exact Or.inr (Nat.le_trans h.nextId_le hid)

theorem follows_remove (t : LockTable) (id : Nat) : t.Follows (t.remove id) :=
  ⟨Nat.le_refl _, fun _ hl => Or.inl (mem_remove_active.mp hl).1⟩

theorem follows_grant (t : LockTable) (store : String) (scope : Scope) (mode : LockMode) :
    t.Follows (t.grant store scope mode).2 where
  nextId_le := Nat.le_succ _
  active := by
    intro l hl
    rw [grant_eq] at hl
    rcases List.mem_append.mp hl with hl | hl
    · exact Or.inl hl
    · rw [List.mem_singleton.mp hl]
      exact Or.inr (Nat.le_refl _)

theorem follows_scan (t : LockTable) (vanishing : Nat → Bool) (ws : List Waiter) :
    t.Follows (scan vanishing ws t).1 := by
  refine scan_induction (P := fun _ t' => t.Follows t') ?_ ?_ ?_ (Follows.refl t)
  · intro w _ t' _ h
    exact ⟨h.nextId_le, h.active⟩
  · intro w _ t' _ _ h
    -- A lock that ends at once was new, and its end makes nothing active.
    exact (h.trans (follows_grant t' w.store w.scope w.mode)).trans (follows_remove _ _)
  · intro w _ t' _ h
    have hgrant := h.trans (follows_grant t' w.store w.scope w.mode)
    exact ⟨hgrant.nextId_le, hgrant.active⟩

theorem follows_releaseWhile (t : LockTable) (vanishing : Nat → Bool) (id : Nat) :
    t.Follows (t.releaseWhile vanishing id).1 := by
  rcases t.releaseWhile_cases vanishing id with heq | ⟨-, heq⟩
  · have hdrained :=
      follows_scan { t.remove id with waiting := [] } vanishing (t.remove id).waiting
    rw [heq]
    exact (follows_remove t id).trans ⟨hdrained.nextId_le, hdrained.active⟩
  · rw [heq]
    exact Follows.refl t

theorem follows_move (t : LockTable) (m : LockMove) : t.Follows (t.move m) := by
  cases m with
  | acquire store scope mode =>
    cases hc : t.conflicts store scope mode with
    | true =>
      rw [move, LockTable.acquire_of_conflict hc]
      exact ⟨Nat.le_refl _, fun _ hl => Or.inl hl⟩
    | false =>
      rw [move, LockTable.acquire_of_no_conflict hc]
      exact follows_grant t store scope mode
  | collect ticket => exact ⟨Nat.le_refl _, fun _ hl => Or.inl hl⟩
  | release vanishing id => exact follows_releaseWhile t vanishing id
  | abandon vanishing ticket =>
    rw [move]
    cases hs : t.sent.get? ticket with
    | some l =>
      have hrelease := follows_releaseWhile (t.collect ticket).2 vanishing l.id
      rw [abandonWhile_of_sent hs]
      exact ⟨hrelease.nextId_le, hrelease.active⟩
    | none =>
      rw [abandonWhile_of_not_sent hs]
      exact ⟨Nat.le_refl _, fun _ hl => Or.inl hl⟩

theorem follows_after (t : LockTable) (ms : List LockMove) : t.Follows (t.after ms) :=
  after_induction (P := t.Follows) (fun t' m h => h.trans (follows_move t' m)) (Follows.refl t) ms

/-- A lock that has ended stays ended. -/
theorem Follows.gone {t t' : LockTable} (h : t.Follows t') {id : Nat} (hid : id < t.nextId)
    (hgone : ∀ l ∈ t.active, l.id ≠ id) : ∀ l ∈ t'.active, l.id ≠ id := by
  intro l hl
  rcases h.active l hl with hl' | hle
  · exact hgone l hl'
  · omega

/-- A release ends the lock of its number for good. -/
theorem releaseWhile_gone (vanishing : Nat → Bool) {id : Nat} (hid : id < t.nextId) :
    ∀ l ∈ (t.releaseWhile vanishing id).1.active, l.id ≠ id := by
  rcases t.releaseWhile_cases vanishing id with heq | ⟨hunknown, heq⟩
  · rw [heq]
    refine (follows_scan { t.remove id with waiting := [] } vanishing _).gone hid ?_
    exact fun l hl => (mem_remove_active.mp hl).2
  · rw [heq]
    exact hunknown

/-! ### Tickets -/

/-- The tickets that wait or that a lock is on its way to. -/
def outstanding (t : LockTable) : List Nat := t.waiting.map (·.ticket) ++ t.sent.keys

theorem mem_outstanding {k : Nat} :
    k ∈ t.outstanding ↔ (∃ w ∈ t.waiting, w.ticket = k) ∨ k ∈ t.sent.keys := by
  simp [outstanding]

/-- A request that is scanned waits on or has its lock sent, unless its waiter vanishes. -/
theorem mem_outstanding_scan {vanishing : Nat → Bool} {k : Nat} (hv : vanishing k = false)
    {ws : List Waiter} (h : (∃ w ∈ ws, w.ticket = k) ∨ k ∈ t.outstanding) :
    k ∈ (scan vanishing ws t).1.outstanding := by
  have key : (∃ w ∈ ([] : List Waiter), w.ticket = k) ∨
      k ∈ (scan vanishing ws t).1.outstanding := by
    refine scan_induction (P := fun ws t => (∃ w ∈ ws, w.ticket = k) ∨ k ∈ t.outstanding)
      ?_ ?_ ?_ h
    · -- The request that is scanned waits on.
      rintro w rest t - (⟨w', hw', hk⟩ | hk)
      · rcases List.mem_cons.mp hw' with rfl | hw'
        · exact Or.inr (mem_outstanding.mpr (Or.inl ⟨w', by simp [postpone], hk⟩))
        · exact Or.inl ⟨w', hw', hk⟩
      · refine Or.inr (mem_outstanding.mpr ?_)
        rcases mem_outstanding.mp hk with ⟨w', hw', hk'⟩ | hk'
        · exact Or.inl ⟨w', List.mem_append_left _ hw', hk'⟩
        · exact Or.inr hk'
    · -- Its waiter vanishes, so it is not the one with this ticket.
      rintro w rest t - hw (⟨w', hw', hk⟩ | hk)
      · rcases List.mem_cons.mp hw' with rfl | hw'
        · rw [hk, hv] at hw
          exact absurd hw Bool.false_ne_true
        · exact Or.inl ⟨w', hw', hk⟩
      · exact Or.inr hk
    · -- Its lock is sent.
      rintro w rest t - (⟨w', hw', hk⟩ | hk)
      · rcases List.mem_cons.mp hw' with rfl | hw'
        · exact Or.inr (mem_outstanding.mpr (Or.inr (by simp [send, Keyed.keys, hk])))
        · exact Or.inl ⟨w', hw', hk⟩
      · refine Or.inr (mem_outstanding.mpr ?_)
        rcases mem_outstanding.mp hk with hk' | hk'
        · exact Or.inl hk'
        · exact Or.inr (by simpa [send, Keyed.keys] using Or.inl hk')
  simpa using key

theorem mem_outstanding_releaseWhile {vanishing : Nat → Bool} {k : Nat} (hv : vanishing k = false)
    (h : k ∈ t.outstanding) (id : Nat) : k ∈ (t.releaseWhile vanishing id).1.outstanding := by
  rcases t.releaseWhile_cases vanishing id with heq | ⟨-, heq⟩
  · rw [heq]
    refine mem_outstanding_scan hv ?_
    rcases mem_outstanding.mp h with hk | hk
    · exact Or.inl hk
    · exact Or.inr (mem_outstanding.mpr (Or.inr hk))
  · rw [heq]
    exact h

theorem mem_outstanding_collect {k ticket : Nat} (hne : k ≠ ticket) (h : k ∈ t.outstanding) :
    k ∈ (t.collect ticket).2.outstanding := by
  refine mem_outstanding.mpr ((mem_outstanding.mp h).imp_right fun hk => ?_)
  have : k ∈ t.sent.keys.erase ticket := (List.mem_erase_of_ne hne).mpr hk
  rwa [← Keyed.keys_erase] at this

end LockTable

/-- A move with which a ticket may end: its lock is collected, or it is given up, or its waiter
vanishes in a scan that the move leads to. -/
inductive LockMove.Ends (k : Nat) : LockMove → Prop
  | collect : Ends k (.collect k)
  | abandon (vanishing : Nat → Bool) : Ends k (.abandon vanishing k)
  | vanish_release {vanishing : Nat → Bool} (id : Nat) :
      vanishing k = true → Ends k (.release vanishing id)
  | vanish_abandon {vanishing : Nat → Bool} (ticket : Nat) :
      vanishing k = true → Ends k (.abandon vanishing ticket)

namespace LockTable

/-- A ticket is outstanding until a move ends it. -/
theorem mem_outstanding_move {t : LockTable} {k : Nat} (h : k ∈ t.outstanding) {m : LockMove}
    (hm : ¬m.Ends k) : k ∈ (t.move m).outstanding := by
  cases m with
  | acquire store scope mode =>
    rw [move]
    cases hc : t.conflicts store scope mode with
    | true =>
      rw [LockTable.acquire_of_conflict hc]
      refine mem_outstanding.mpr ((mem_outstanding.mp h).imp_left ?_)
      rintro ⟨w, hw, hk⟩
      exact ⟨w, List.mem_append_left _ hw, hk⟩
    | false =>
      rw [LockTable.acquire_of_no_conflict hc]
      exact h
  | collect ticket =>
    refine mem_outstanding_collect ?_ h
    rintro rfl
    exact hm .collect
  | release vanishing id =>
    refine mem_outstanding_releaseWhile (Bool.eq_false_iff.mpr fun hv => ?_) h id
    exact hm (.vanish_release id hv)
  | abandon vanishing ticket =>
    have hv : vanishing k = false :=
      Bool.eq_false_iff.mpr fun hv => hm (.vanish_abandon ticket hv)
    have hne : k ≠ ticket := by
      rintro rfl
      exact hm (.abandon vanishing)
    rw [move]
    cases hs : t.sent.get? ticket with
    | some l =>
      rw [abandonWhile_of_sent hs]
      exact mem_outstanding_releaseWhile hv (mem_outstanding_collect hne h) l.id
    | none =>
      rw [abandonWhile_of_not_sent hs]
      refine mem_outstanding.mpr ((mem_outstanding.mp h).imp_left ?_)
      rintro ⟨w, hw, hk⟩
      exact ⟨w, List.mem_filter.mpr ⟨hw, by simpa [hk] using hne⟩, hk⟩

end LockTable

/-! ### Who has which lock -/

/-- A table of locks and the locks that are in somebody's hands. -/
structure Holding where
  table : LockTable := {}
  held : List Lock := []

namespace Holding

/-- The locks in somebody's hands after a move: whoever is granted a lock at once or collects one
has it, and whoever releases a lock has it no more. -/
def heldAfter (h : Holding) : LockMove → List Lock
  | .acquire store scope mode =>
    match (h.table.acquire store scope mode).1 with
    | .inl lock => lock :: h.held
    | .inr _ => h.held
  | .collect ticket => (h.table.collect ticket).1.toList ++ h.held
  | .release _ id => h.held.filter (·.id != id)
  | .abandon _ _ => h.held

/-- The table and the locks in somebody's hands after a move. -/
def move (h : Holding) (m : LockMove) : Holding := ⟨h.table.move m, h.heldAfter m⟩

/-- The table and the locks in somebody's hands after moves one after another. -/
def after (h : Holding) (ms : List LockMove) : Holding := ms.foldl move h

/-- A number that somebody may release.  Somebody may have it, or it is that of a lock that has
ended, or of none at all; but nobody has the number of a lock that is on its way. -/
def Allowed (h : Holding) : LockMove → Prop
  | .release _ id => ∀ l ∈ h.table.sent.values, l.id ≠ id
  | _ => True

/-- Moves that are all allowed when they are made. -/
def Honest : Holding → List LockMove → Prop
  | _, [] => True
  | h, m :: ms => h.Allowed m ∧ Honest (h.move m) ms

instance (h : Holding) : (m : LockMove) → Decidable (h.Allowed m)
  | .release _ id => inferInstanceAs (Decidable (∀ l ∈ h.table.sent.values, l.id ≠ id))
  | .acquire _ _ _ => .isTrue trivial
  | .collect _ => .isTrue trivial
  | .abandon _ _ => .isTrue trivial

instance decidableHonest : (h : Holding) → (ms : List LockMove) → Decidable (h.Honest ms)
  | _, [] => .isTrue trivial
  | h, m :: ms =>
    have := decidableHonest (h.move m) ms
    inferInstanceAs (Decidable (h.Allowed m ∧ Honest (h.move m) ms))

/-- Every active lock is in one place. -/
def Sound (h : Holding) : Prop := h.table.Owned h.held

/-- Locks with distinct numbers, and one of them taken to the front. -/
theorem perm_cons_filter {held : List Lock} (h : (held.map (·.id)).Nodup) {l : Lock}
    (hl : l ∈ held) : held.Perm (l :: held.filter (·.id != l.id)) := by
  induction held with
  | nil => simp at hl
  | cons a held ih =>
    rcases List.mem_cons.mp hl with rfl | hl
    · have hother : ∀ l' ∈ held, (l'.id != l.id) = true :=
        fun l' hl' => bne_iff_ne.mpr (id_ne_of_nodup h hl')
      rw [List.filter_cons_of_neg (by simp), List.filter_eq_self.mpr hother]
    · have hne : a.id ≠ l.id := (id_ne_of_nodup h hl).symm
      rw [List.filter_cons_of_pos (by simpa using hne)]
      exact ((ih (List.nodup_cons.mp h).2 hl).cons a).trans (List.Perm.swap _ _ _)

theorem Sound.move {h : Holding} (hs : h.Sound) {m : LockMove} (hm : h.Allowed m) :
    (h.move m).Sound := by
  cases m with
  | acquire store scope mode =>
    cases hc : h.table.conflicts store scope mode with
    | true =>
      have howned := hs.acquire_of_conflict hc
      rw [LockTable.acquire_of_conflict hc] at howned
      simpa [Sound, Holding.move, heldAfter, LockTable.move, LockTable.acquire_of_conflict hc]
        using howned
    | false =>
      have howned := hs.acquire_of_no_conflict hc
      rw [LockTable.acquire_of_no_conflict hc] at howned
      simpa [Sound, Holding.move, heldAfter, LockTable.move, LockTable.acquire_of_no_conflict hc]
        using howned
  | collect ticket =>
    cases hl : h.table.sent.get? ticket with
    | some l =>
      have howned := hs.collect hl
      simpa [Sound, Holding.move, heldAfter, LockTable.move, LockTable.collect, hl] using howned
    | none =>
      have herase : h.table.sent.erase ticket = h.table.sent := Keyed.erase_of_get?_eq_none hl
      simpa [Sound, Holding.move, heldAfter, LockTable.move, LockTable.collect, hl, herase] using hs
  | release vanishing id =>
    by_cases hid : ∃ l ∈ h.held, l.id = id
    · obtain ⟨l, hl, rfl⟩ := hid
      -- Whoever has the lock gives it back, and everybody else keeps theirs.
      have hnodup : (h.held.map (·.id)).Nodup :=
        hs.distinct_owners.sublist ((List.sublist_append_left _ _).map _)
      exact (hs.perm (perm_cons_filter hnodup hl)).releaseWhile vanishing
    · -- Nobody has the number, and nobody can have one that is on its way: it is unknown.
      have hheld : ∀ l ∈ h.held, (l.id != id) = true := by
        intro l hl
        rw [bne_iff_ne]
        exact fun heq => hid ⟨l, hl, heq⟩
      have hunknown : ∀ l ∈ h.table.active, l.id ≠ id := by
        intro l hl
        rcases List.mem_append.mp (hs.owners.mem_iff.mpr hl) with hl' | hl'
        · exact fun heq => hid ⟨l, hl', heq⟩
        · exact hm l hl'
      simpa [Sound, Holding.move, heldAfter, LockTable.move,
        LockTable.releaseWhile_of_unknown hunknown, List.filter_eq_self.mpr hheld] using hs
  | abandon vanishing ticket => exact hs.abandonWhile vanishing ticket

theorem Sound.after {h : Holding} (hs : h.Sound) {ms : List LockMove} (hms : h.Honest ms) :
    (h.after ms).Sound := by
  induction ms generalizing h with
  | nil => exact hs
  | cons m ms ih => exact ih (hs.move hms.1) hms.2

/-- **No lock is leaked, owned twice or ended twice.**  Whatever parties do from the empty table on,
giving up or vanishing at any moment, as long as nobody releases a lock that is on its way:

* the active locks have distinct numbers, and these are the numbers of the locks in somebody's hands
  and of the locks on their way;
* a ticket is outstanding until its lock is collected, or it is given up, or its waiter vanishes;
* a lock that becomes active later has a number that no lock has had before;
* the number of a lock that has been released is never active again, and to release it again,
  whenever that is, changes nothing;
* once no lock is in anybody's hands and no ticket is outstanding, no lock is active. -/
theorem locks_owned_once {ms : List LockMove} (hms : Honest {} ms) :
    let h := after {} ms
    (h.table.active.map (·.id)).Nodup ∧
      (h.held.map (·.id) ++ h.table.sent.values.map (·.id)).Perm (h.table.active.map (·.id)) ∧
      (∀ k ∈ h.table.outstanding, ∀ m : LockMove, ¬m.Ends k →
        k ∈ (h.table.move m).outstanding) ∧
      ((∀ l ∈ h.table.active, l.id < h.table.nextId) ∧
        ∀ ns, ∀ l ∈ (h.table.after ns).active, l ∈ h.table.active ∨ h.table.nextId ≤ l.id) ∧
      (∀ l ∈ h.held, ∀ vanishing ns,
        let t := (h.table.move (.release vanishing l.id)).after ns
        (∀ l' ∈ t.active, l'.id ≠ l.id) ∧
          ∀ vanishing', t.releaseWhile vanishing' l.id = (t, [])) ∧
      (h.held = [] → h.table.outstanding = [] → h.table.active = []) := by
  intro h
  have howned : h.table.Owned h.held := Sound.after (h := {}) LockTable.Owned.empty hms
  refine ⟨howned.distinct, ?_, fun k hk m hm => LockTable.mem_outstanding_move hk hm,
    ⟨howned.fresh, fun ns => (h.table.follows_after ns).active⟩, ?_, ?_⟩
  · rw [← List.map_append]
    exact howned.owners.map _
  · intro l hl vanishing ns t
    have hid : l.id < h.table.nextId := howned.fresh l (howned.mem_active hl)
    -- The release ends the lock, and its number stays below the next one to be given.
    have hgone : ∀ l' ∈ t.active, l'.id ≠ l.id :=
      (LockTable.follows_after _ ns).gone
        (Nat.lt_of_lt_of_le hid (h.table.follows_move _).nextId_le)
        (LockTable.releaseWhile_gone vanishing hid)
    exact ⟨hgone, LockTable.releaseWhile_of_unknown hgone⟩
  · -- Nothing is held, and nothing is on its way either, as no ticket is outstanding.
    intro hheld hout
    have hsent : h.table.sent.values = [] := by
      have hkeys : h.table.sent.keys = [] := (List.append_eq_nil_iff.mp hout).2
      rw [Keyed.values, List.map_eq_nil_iff]
      exact List.map_eq_nil_iff.mp hkeys
    have hnil := howned.owners
    rw [hheld, hsent, List.append_nil] at hnil
    exact hnil.nil_eq.symm

/-- The crowd goes on: one lock is collected and released twice, the other is on its way to a waiter
who gives up, and a number is released that no lock ever had. -/
def errands : List LockMove :=
  LockTable.crowd ++ [.collect 1, .release (fun _ => false) 2, .release (fun _ => false) 2,
    .abandon (fun _ => false) 2, .release (fun _ => false) 9]

/-- After the errands no lock is active. -/
theorem errands_leave_nothing :
    Honest {} errands ∧ (after {} errands).held = [] ∧
      (after {} errands).table.outstanding = [] ∧ (after {} errands).table.active = [] := by
  have hheld : (after {} errands).held = [] := by decide
  have hout : (after {} errands).table.outstanding = [] := by decide
  have hhonest : Honest {} errands := by decide
  exact ⟨hhonest, hheld, hout, (locks_owned_once hhonest).2.2.2.2.2 hheld hout⟩

end Holding

end RemoteSettings
