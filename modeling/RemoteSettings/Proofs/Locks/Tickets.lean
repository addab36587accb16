import RemoteSettings.Proofs.Locks.WakeUp

/-!
# Tickets are handed in one by one

A ticket is outstanding from the moment at which it is given until its lock is collected or it is
given up.  A release gives no ticket and takes none away, if no waiter vanishes; it only sends locks
to some of those that are outstanding, and it names the tickets that it serves.

## Main results

* `outstanding_release`, `outstanding_collect`, `outstanding_abandon`, `outstanding_acquire` — what
  becomes of outstanding tickets.
* `sent_release`, `sent_abandon` — a lock that is sent is sent to a ticket that is named.
-/

namespace RemoteSettings.LockTable

variable {t : LockTable} {k ticket : Nat} {l : Lock}

/-! ### Outstanding tickets -/

/-- A scan in which no waiter vanishes takes no ticket away. -/
theorem outstanding_scan (ws : List Waiter) (t : LockTable) :
    (scan (fun _ => false) ws t).1.outstanding.Perm (ws.map (·.ticket) ++ t.outstanding) := by
  refine scan_induction (P := fun rest t' =>
    (rest.map (·.ticket) ++ t'.outstanding).Perm (ws.map (·.ticket) ++ t.outstanding)) ?_ ?_ ?_
    (.refl _)
  · -- The request that is scanned waits on.
    intro w rest t' _ h
    refine List.Perm.trans ?_ h
    have hmiddle : ∀ tickets : List Nat, (tickets ++ w.ticket :: t'.sent.keys).Perm
        (w.ticket :: (tickets ++ t'.sent.keys)) := fun _ => List.perm_middle
    simpa [outstanding, postpone] using hmiddle (rest.map (·.ticket) ++ t'.waiting.map (·.ticket))
  · intro w rest t' _ hvanishing
    cases hvanishing
  · intro w rest t' _ h
    refine List.Perm.trans ?_ h
    have hend := List.perm_append_singleton w.ticket (rest.map (·.ticket) ++ t'.outstanding)
    simpa [outstanding, send, Keyed.keys] using hend

/-- A release takes no ticket away. -/
theorem outstanding_release (t : LockTable) (id : Nat) :
    (t.release id).1.outstanding.Perm t.outstanding := by
  rw [release]
  rcases t.releaseWhile_cases (fun _ => false) id with heq | ⟨-, heq⟩
  · rw [heq]
    exact outstanding_scan t.waiting { t.remove id with waiting := [] }
  · rw [heq]

/-- To collect a lock hands one ticket in. -/
theorem outstanding_collect (h : t.sent.get? k = some l) :
    (k :: (t.collect k).2.outstanding).Perm t.outstanding := by
  have hkey : k ∈ t.sent.keys := by
    by_contra hnot
    cases (Keyed.get?_eq_none_iff.mpr hnot).symm.trans h
  have hkeys : (t.sent.erase k).keys = t.sent.keys.erase k := Keyed.keys_erase k t.sent
  show (k :: (t.waiting.map (·.ticket) ++ (t.sent.erase k).keys)).Perm _
  rw [hkeys]
  exact List.perm_middle.symm.trans ((List.perm_cons_erase hkey).symm.append_left _)

/-- To give a ticket up hands it in. -/
theorem outstanding_abandon (hnodup : t.outstanding.Nodup) (h : k ∈ t.outstanding) :
    (k :: (t.abandon k).1.outstanding).Perm t.outstanding := by
  rw [abandon]
  cases hs : t.sent.get? k with
  | some l =>
    rw [abandonWhile_of_sent hs]
    exact ((outstanding_release _ l.id).cons k).trans (outstanding_collect hs)
  | none =>
    rw [abandonWhile_of_not_sent hs]
    have hnot : k ∉ t.sent.keys := Keyed.get?_eq_none_iff.mp hs
    have hwaits : k ∈ t.waiting.map (·.ticket) := (List.mem_append.mp h).resolve_right hnot
    have hfilter : (t.waiting.filter (·.ticket != k)).map (·.ticket)
        = (t.waiting.map (·.ticket)).erase k := by
      rw [(List.nodup_append.mp hnodup).1.erase_eq_filter, List.filter_map]
      rfl
    rw [outstanding, hfilter]
    exact (List.perm_cons_erase hwaits).symm.append_right _

/-- A request that has to wait takes a new ticket. -/
theorem outstanding_acquire {store : String} {scope : Scope} {mode : LockMode} {t' : LockTable}
    (h : t.acquire store scope mode = (.inr k, t')) :
    t'.outstanding.Perm (k :: t.outstanding) := by
  obtain ⟨-, rfl, rfl⟩ := acquire_eq_inr h
  simp [outstanding, postpone]

/-- Outstanding tickets have been given. -/
theorem Numbered.lt_of_outstanding (h : t.Numbered) (hk : k ∈ t.outstanding) :
    k < t.nextTicket := by
  obtain ⟨w, hw, rfl⟩ := mem_outstanding_iff_requests.mp hk
  exact h w hw

theorem mem_outstanding_of_sent (h : t.sent.get? k = some l) : k ∈ t.outstanding :=
  mem_outstanding_iff_requests.mpr ⟨_, served_mem_requests h, rfl⟩

/-! ### Tickets that are served -/

theorem sent_scan {vanishing : Nat → Bool} {ws : List Waiter}
    (h : (scan vanishing ws t).1.sent.get? k = some l) :
    t.sent.get? k = some l ∨ k ∈ (scan vanishing ws t).2 := by
  induction ws generalizing t with
  | nil => exact Or.inl h
  | cons w rest ih =>
    rw [scan] at h ⊢
    cases hc : t.conflicts w.store w.scope w.mode with
    | true =>
      rw [hc] at h
      exact ih (t := t.postpone w) h
    | false =>
      rw [hc] at h
      simp only [Bool.false_eq_true, if_false] at h ⊢
      cases hv : vanishing w.ticket with
      | true =>
        rw [hv] at h
        exact ih (t := t.miss w) h
      | false =>
        rw [hv] at h
        by_cases hk : k = w.ticket
        · exact Or.inr (List.mem_cons.mpr (Or.inl hk))
        · rcases ih (t := t.send w) h with hsent | hserved
          · refine Or.inl ?_
            exact (Keyed.get?_concat_of_ne (Ne.symm hk) _ t.sent).symm.trans hsent
          · exact Or.inr (List.mem_cons_of_mem _ hserved)

/-- A release sends locks to the tickets that it names. -/
theorem sent_release {id : Nat} (h : (t.release id).1.sent.get? k = some l) :
    t.sent.get? k = some l ∨ k ∈ (t.release id).2 := by
  rw [release] at h ⊢
  rcases t.releaseWhile_cases (fun _ => false) id with heq | ⟨-, heq⟩
  · rw [heq] at h ⊢
    exact sent_scan h
  · rw [heq] at h ⊢
    exact Or.inl h

/-- To give a ticket up sends locks to the tickets that are named. -/
theorem sent_abandon (hne : k ≠ ticket) (h : (t.abandon ticket).1.sent.get? k = some l) :
    t.sent.get? k = some l ∨ k ∈ (t.abandon ticket).2 := by
  rw [abandon] at h ⊢
  cases hs : t.sent.get? ticket with
  | some l' =>
    rw [abandonWhile_of_sent hs] at h ⊢
    refine (sent_release h).imp_left fun hsent => ?_
    exact (Keyed.get?_erase_of_ne hne.symm t.sent).symm.trans hsent
  | none =>
    rw [abandonWhile_of_not_sent hs] at h
    exact Or.inl h

end RemoteSettings.LockTable
