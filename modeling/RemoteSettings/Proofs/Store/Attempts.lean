import Mathlib.Data.List.Induction
import RemoteSettings.Store.Basic

/-!
# Attempts in order

A task runs the resolver for a cell, and then the run ends or the task is dropped.  In between its
run is in flight.  Attempts are in order if a run is begun only while none is in flight for the cell
and none has ended, and if all who are told of an end are told of that of a run for their cell.  So
a cell is resolved at most once, and everybody hears the same of it.

## Main definitions

* `InFlight` — a task has begun a run that has neither ended nor been dropped.
* `Attempt.MayFollow`, `InOrder` — attempts each of which could be made when it was made.

## Main results

* `InOrder.unique` — at most one run is in flight for a cell.
* `InOrder.ended_unique` — at most one run ends for a cell.
* `InOrder.not_inFlight` — once a run has ended, none is in flight.
* `InOrder.told_eq` — whoever is told of an end is told of the only one.
-/

namespace RemoteSettings

namespace Attempt

/-- The task that makes an attempt. -/
def task : Attempt → Nat
  | begun n _ _ => n
  | ended n _ _ => n
  | dropped n _ => n
  | told n _ _ => n

end Attempt

/-- A task has begun to run the resolver of a key for a cell, and its run has neither ended nor been
dropped. -/
def InFlight (as : List Attempt) (n c : Nat) (key : ResolverKey) : Prop :=
  .begun n c key ∈ as ∧ (∀ o, .ended n c o ∉ as) ∧ .dropped n c ∉ as

/-- What may be done after attempts: a run is begun by a task that has not tried anything yet, if
none is in flight for the cell, none has ended, and all before were for the same key; only what is
in flight ends or is dropped; and tasks are told of runs that have ended. -/
def Attempt.MayFollow (as : List Attempt) : Attempt → Prop
  | begun n c key => (∀ a ∈ as, a.task ≠ n) ∧ (∀ m key', ¬InFlight as m c key') ∧
      (∀ m o, .ended m c o ∉ as) ∧ ∀ m key', .begun m c key' ∈ as → key' = key
  | ended n c _ => ∃ key, InFlight as n c key
  | dropped n c => ∃ key, InFlight as n c key
  | told _ c o => ∃ m, .ended m c o ∈ as

/-- Attempts each of which could be made when it was made. -/
def InOrder (as : List Attempt) : Prop := ∀ pre a, pre ++ [a] <+: as → a.MayFollow pre

namespace InOrder

variable {as : List Attempt} {a : Attempt} {n m c : Nat} {key key' : ResolverKey}
  {o o' : Except Failure Unit}

theorem nil : InOrder [] := by
  intro pre a h
  exact absurd (List.prefix_nil.mp h) (by simp)

theorem snoc (h : InOrder as) (ha : a.MayFollow as) : InOrder (as ++ [a]) := by
  intro pre b hpre
  rcases List.prefix_concat_iff.mp hpre with heq | hpre
  · obtain ⟨rfl, hlast⟩ := List.append_inj' heq rfl
    rwa [List.singleton_inj.mp hlast]
  · exact h pre b hpre

theorem of_prefix {bs : List Attempt} (h : InOrder bs) (hpre : as <+: bs) : InOrder as :=
  fun pre a ha => h pre a (ha.trans hpre)

theorem last (h : InOrder (as ++ [a])) : InOrder as ∧ a.MayFollow as :=
  ⟨h.of_prefix (List.prefix_append as [a]), h as a List.prefix_rfl⟩

end InOrder

section InFlight

variable {as : List Attempt} {a : Attempt} {n m c : Nat} {key key' : ResolverKey}
  {o o' : Except Failure Unit}

/-- What is in flight after one more attempt was in flight before, unless it has just been begun. -/
theorem InFlight.of_snoc (h : InFlight (as ++ [a]) n c key) :
    InFlight as n c key ∨ a = .begun n c key := by
  obtain ⟨hbegun, hended, hdropped⟩ := h
  rcases List.mem_append.mp hbegun with hbegun | hbegun
  · exact Or.inl ⟨hbegun, fun o ho => hended o (List.mem_append_left _ ho),
      fun ho => hdropped (List.mem_append_left _ ho)⟩
  · exact Or.inr (List.mem_singleton.mp hbegun).symm

/-- What is in flight after more attempts, none of which begins a run, was in flight before. -/
theorem InFlight.of_append {bs : List Attempt} (h : InFlight (as ++ bs) n c key)
    (hbs : ∀ key, .begun n c key ∉ bs) : InFlight as n c key := by
  obtain ⟨hbegun, hended, hdropped⟩ := h
  rcases List.mem_append.mp hbegun with hbegun | hbegun
  · exact ⟨hbegun, fun o ho => hended o (List.mem_append_left _ ho),
      fun ho => hdropped (List.mem_append_left _ ho)⟩
  · exact absurd hbegun (hbs key)

/-- What other tasks try does not matter to what a task has in flight. -/
theorem inFlight_append_of_ne {bs : List Attempt} (h : ∀ b ∈ bs, b.task ≠ n) :
    InFlight (as ++ bs) n c key ↔ InFlight as n c key := by
  have hmem : ∀ a : Attempt, a.task = n → (a ∈ as ++ bs ↔ a ∈ as) := by
    intro a ha
    have hnot : a ∉ bs := fun hb => h a hb ha
    simp [hnot]
  simp only [InFlight, hmem (.begun n _ _) rfl, hmem (.ended n _ _) rfl, hmem (.dropped n _) rfl]

/-- What a task has begun is in flight, if it has tried nothing before. -/
theorem inFlight_begun (h : ∀ a ∈ as, a.task ≠ n) {c' : Nat} :
    InFlight (as ++ [.begun n c key]) n c' key' ↔ c' = c ∧ key' = key := by
  have hnot : ∀ a : Attempt, a.task = n → a ∉ as := fun a ha hmem => h a hmem ha
  simp [InFlight, hnot (.begun n _ _) rfl, hnot (.ended n _ _) rfl, hnot (.dropped n _) rfl]

end InFlight

namespace InOrder

variable {as : List Attempt} {n m c : Nat} {key key' : ResolverKey} {o o' : Except Failure Unit}

/-- **At most one run is in flight for a cell.** -/
theorem unique (h : InOrder as) (hn : InFlight as n c key) (hm : InFlight as m c key') :
    n = m ∧ key = key' := by
  -- Two runs come together with the attempt that begins the later one.
  induction as using List.reverseRecOn with
  | nil => exact absurd hn.1 List.not_mem_nil
  | append_singleton as a ih =>
    obtain ⟨has, ha⟩ := h.last
    rcases hn.of_snoc with hn' | rfl
    · rcases hm.of_snoc with hm' | rfl
      · exact ih has hn' hm'
      · exact absurd hn' (ha.2.1 n key)
    · rcases hm.of_snoc with hm' | heq
      · exact absurd hm' (ha.2.1 m key')
      · cases heq
        exact ⟨rfl, rfl⟩

/-- **Once a run has ended, none is in flight for the cell.** -/
theorem not_inFlight (h : InOrder as) (hended : .ended m c o ∈ as) : ¬InFlight as n c key := by
  induction as using List.reverseRecOn with
  | nil => exact absurd hended List.not_mem_nil
  | append_singleton as a ih =>
    intro hn
    obtain ⟨has, ha⟩ := h.last
    rcases List.mem_append.mp hended with hbefore | hlast
    · rcases hn.of_snoc with hn' | rfl
      · exact ih has hbefore hn'
      · exact ha.2.2.1 m o hbefore
    · -- The run that has just ended was the only one, and it is over.
      obtain rfl := List.mem_singleton.mp hlast
      obtain ⟨key', hm⟩ := ha
      rcases hn.of_snoc with hn' | heq
      · obtain ⟨rfl, -⟩ := has.unique hn' hm
        exact hn.2.1 o (List.mem_append_right _ (List.mem_singleton_self _))
      · cases heq

/-- **At most one run ends for a cell.** -/
theorem ended_unique (h : InOrder as) (hn : .ended n c o ∈ as) (hm : .ended m c o' ∈ as) :
    n = m ∧ o = o' := by
  induction as using List.reverseRecOn with
  | nil => exact absurd hn List.not_mem_nil
  | append_singleton as a ih =>
    obtain ⟨has, ha⟩ := h.last
    rcases List.mem_append.mp hn with hn' | hn'
    · rcases List.mem_append.mp hm with hm' | hm'
      · exact ih has hn' hm'
      · obtain rfl := List.mem_singleton.mp hm'
        obtain ⟨key, hflight⟩ := ha
        exact absurd hflight (has.not_inFlight hn')
    · obtain rfl := List.mem_singleton.mp hn'
      rcases List.mem_append.mp hm with hm' | hm'
      · obtain ⟨key, hflight⟩ := ha
        exact absurd hflight (has.not_inFlight hm')
      · cases List.mem_singleton.mp hm'
        exact ⟨rfl, rfl⟩

/-- Whoever is told of an end is told of one that has been before. -/
theorem exists_ended (h : InOrder as) (htold : .told n c o ∈ as) : ∃ m, .ended m c o ∈ as := by
  obtain ⟨pre, rest, rfl⟩ := List.append_of_mem htold
  obtain ⟨m, hm⟩ := h pre (.told n c o) ⟨rest, by simp⟩
  exact ⟨m, List.mem_append_left _ hm⟩

/-- **Whoever is told of an end is told of the only one.** -/
theorem told_eq (h : InOrder as) (htold : .told n c o ∈ as) (hended : .ended m c o' ∈ as) :
    o = o' := by
  obtain ⟨m', hm'⟩ := h.exists_ended htold
  exact (h.ended_unique hm' hended).2

/-- All runs for a cell are for one key. -/
theorem key_eq (h : InOrder as) (hn : .begun n c key ∈ as) (hm : .begun m c key' ∈ as) :
    key = key' := by
  induction as using List.reverseRecOn with
  | nil => exact absurd hn List.not_mem_nil
  | append_singleton as a ih =>
    obtain ⟨has, ha⟩ := h.last
    rcases List.mem_append.mp hn with hn' | hn'
    · rcases List.mem_append.mp hm with hm' | hm'
      · exact ih has hn' hm'
      · obtain rfl := List.mem_singleton.mp hm'
        exact ha.2.2.2 n key hn'
    · obtain rfl := List.mem_singleton.mp hn'
      rcases List.mem_append.mp hm with hm' | hm'
      · exact (ha.2.2.2 m key' hm').symm
      · cases List.mem_singleton.mp hm'
        rfl

end InOrder

end RemoteSettings
