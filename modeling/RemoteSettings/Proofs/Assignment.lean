import Mathlib.Data.List.Forall2
import RemoteSettings.Command

/-!
# What is typed for a batch

An assignment is an id, the first equals sign, and whatever follows it.  It is none if there is no
equals sign, or nothing before it.

## Main definitions

* `Assignment.Assigns` — a text assigns what an update asks for.
* `Assignment.Bad` — a text assigns nothing.

## Main results

* `Assignment.parse_eq_some_iff`, `Assignment.parse_eq_none_iff` — how a text is read.
* `Command.updatesOf_of_bad`, `Command.exists_updatesOf` — **assignments are read if none is bad.**
-/

namespace RemoteSettings

namespace Assignment

/-- A text assigns what an update asks for: the id stands before the first equals sign, and the
value after it. -/
def Assigns (raw : String) (u : Update) : Prop :=
  ∃ value : String, raw = u.id ++ "=" ++ value ∧ '=' ∉ u.id.toList ∧ u.id ≠ "" ∧
    u.value = .parse value

/-- A text assigns nothing: it has no equals sign, or begins with one. -/
def Bad (raw : String) : Prop := '=' ∉ raw.toList ∨ raw.toList.head? = some '='

instance (raw : String) : Decidable (Bad raw) := inferInstanceAs (Decidable (_ ∨ _))

theorem split_eq_some_iff {cs id value : List Char} :
    split cs = some (id, value) ↔ cs = id ++ '=' :: value ∧ '=' ∉ id := by
  induction cs generalizing id with
  | nil => simp [split]
  | cons c rest ih =>
    by_cases hc : c = '='
    · subst hc
      rw [split]
      cases id <;> simp +contextual [eq_comm]
    · rw [split]
      · constructor
        · intro h
          obtain ⟨⟨front, back⟩, hrest, heq⟩ := Option.map_eq_some_iff.mp h
          cases heq
          obtain ⟨rfl, hid⟩ := ih.mp hrest
          exact ⟨rfl, List.not_mem_cons_of_ne_of_not_mem (Ne.symm hc) hid⟩
        · rintro ⟨h, hid⟩
          cases id with
          | nil => exact absurd (List.cons.inj h).1 hc
          | cons d id =>
            obtain ⟨rfl, hrest⟩ := List.cons.inj h
            rw [ih.mpr ⟨hrest, fun hmem => hid (List.mem_cons_of_mem c hmem)⟩]
            rfl
      · exact fun h => absurd h hc

theorem split_eq_none_iff {cs : List Char} : split cs = none ↔ '=' ∉ cs := by
  induction cs with
  | nil => simp [split]
  | cons c rest ih =>
    by_cases hc : c = '='
    · subst hc
      simp [split]
    · rw [split, Option.map_eq_none_iff, ih]
      · simp [Ne.symm hc]
      · exact fun h => absurd h hc

/-- **A text is read as what it assigns.** -/
theorem parse_eq_some_iff {raw : String} {u : Update} : parse raw = some u ↔ Assigns raw u := by
  constructor
  · intro h
    unfold parse at h
    split at h
    · next c id value hsplit =>
      obtain ⟨hraw, hid⟩ := split_eq_some_iff.mp hsplit
      cases h
      refine ⟨String.ofList value, ?_, by simpa using hid, by simp, rfl⟩
      rw [← String.toList_inj, hraw]
      simp
    · cases h
  · rintro ⟨value, rfl, hid, hne, hvalue⟩
    have hsplit : split (u.id ++ "=" ++ value).toList = some (u.id.toList, value.toList) :=
      split_eq_some_iff.mpr ⟨by simp, hid⟩
    rw [parse, hsplit]
    cases hlist : u.id.toList with
    | nil => exact absurd (String.toList_eq_nil_iff.mp hlist) hne
    | cons c id =>
      dsimp only
      rw [← hlist, String.ofList_toList, String.ofList_toList, ← hvalue]

/-- A text is not read exactly if it assigns nothing. -/
theorem parse_eq_none_iff {raw : String} : parse raw = none ↔ Bad raw := by
  cases hsplit : split raw.toList with
  | none =>
    have hbad : Bad raw := Or.inl (split_eq_none_iff.mp hsplit)
    simp [parse, hsplit, hbad]
  | some parts =>
    obtain ⟨id, value⟩ := parts
    obtain ⟨hraw, hid⟩ := split_eq_some_iff.mp hsplit
    cases id with
    | nil =>
      have hbad : Bad raw := Or.inr (by rw [hraw]; rfl)
      simp [parse, hsplit, hbad]
    | cons c id =>
      have hgood : ¬Bad raw := by
        have hfirst : c ≠ '=' := fun hc => hid (hc ▸ List.mem_cons_self)
        rw [Bad, hraw]
        simp [hfirst]
      simp [parse, hsplit, hgood]

end Assignment

namespace Command

/-- If an assignment is bad, none is made. -/
theorem updatesOf_of_bad {assignments : List String}
    (h : ∃ raw ∈ assignments, Assignment.Bad raw) :
    ∃ p, updatesOf assignments = .error p := by
  induction assignments with
  | nil =>
    obtain ⟨raw, hraw, -⟩ := h
    cases hraw
  | cons raw rest ih =>
    rw [updatesOf]
    split
    · next u hu =>
      obtain ⟨raw', hmem, hbad⟩ := h
      rcases List.mem_cons.mp hmem with rfl | hrest
      · rw [Assignment.parse_eq_none_iff.mpr hbad] at hu
        cases hu
      · obtain ⟨p, hp⟩ := ih ⟨raw', hrest, hbad⟩
        exact ⟨p, by rw [hp]; rfl⟩
    · exact ⟨_, rfl⟩

/-- If no assignment is bad, all of them are made. -/
theorem exists_updatesOf {assignments : List String}
    (h : ∀ raw ∈ assignments, ¬Assignment.Bad raw) :
    ∃ us, updatesOf assignments = .ok us ∧ List.Forall₂ Assignment.Assigns assignments us := by
  induction assignments with
  | nil => exact ⟨[], rfl, .nil⟩
  | cons raw rest ih =>
    obtain ⟨hraw, hrest⟩ := List.forall_mem_cons.mp h
    obtain ⟨us, hus, hassigns⟩ := ih hrest
    cases hparse : Assignment.parse raw with
    | none => exact absurd (Assignment.parse_eq_none_iff.mp hparse) hraw
    | some u =>
      refine ⟨u :: us, ?_, .cons (Assignment.parse_eq_some_iff.mp hparse) hassigns⟩
      rw [updatesOf, hparse]
      dsimp only
      rw [hus]
      rfl

end Command

end RemoteSettings
