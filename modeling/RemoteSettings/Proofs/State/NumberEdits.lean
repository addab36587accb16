import RemoteSettings.Proofs.Number.Comparison
import RemoteSettings.Proofs.State.Edits

/-!
# Edits of numbers

An edit of a number is taken for the number that is reported, and dropped, exactly if the two
compare equal.  As a whole number is rounded to be compared with a binary one, an edit may be
dropped though it stands for another number than the one that is reported.

## Main results

* `State.edit?_edit_number` — which edits of numbers are dropped.
* `numbers_compare_rounded` — **equality is that of rational numbers up to rounding.**
* `unequal_numbers_compare_equal` — rounding makes a difference beyond `2 ^ 53`.
-/

namespace RemoteSettings

namespace State

/-- **Which edits of numbers are dropped**: those that compare equal to the number that is reported.
An edit that is there afterwards compares equal to the one that was asked for. -/
theorem edit?_edit_number {s : State} (hs : s.Kept) {g id : String} {x : Versioned Setting}
    {c : Number} (hx : s.setting? g id = some x) (hc : x.value.value = .number c) (now : Nat)
    (e : Number) :
    let e' := (s.reduce now (.edit g id (.number e))).edit? g id
    (e' = none ↔ c.equals e = true) ∧ ∀ v, e' = some v → v.equals (.number e) = true := by
  have hreported : isReported (s.settings.value.get? g) id (.number e) = c.equals e := by
    rw [isReported_of_setting?, hx, Option.any_some, hc]
    rfl
  intro e'
  have hedit : e' = _ := edit?_edit hs g g id id (.number e)
  rw [if_pos ⟨rfl, rfl⟩, remainingEdit, hreported] at hedit
  cases hequal : c.equals e with
  | true =>
    rw [if_pos hequal] at hedit
    refine ⟨iff_of_true hedit rfl, fun v hv => ?_⟩
    cases hedit.symm.trans hv
  | false =>
    rw [hequal, if_neg Bool.false_ne_true] at hedit
    split at hedit
    · next hold =>
      -- The edit that was there is equal to the one asked for, and stays.
      cases hlook : s.edit? g id with
      | none =>
        rw [hlook] at hold
        cases hold
      | some v =>
        rw [hlook] at hold hedit
        refine ⟨by simp [hedit], fun w hw => ?_⟩
        cases hedit.symm.trans hw
        exact hold
    · refine ⟨by simp [hedit], fun w hw => ?_⟩
      cases hedit.symm.trans hw
      exact e.equals_self

end State

/-- **Numbers are compared by value unless one is rounded to the other.**  Only a whole number beyond
`2 ^ 53` that no binary number is equal to is rounded to another number, and then to one that none
is nearer than.  Equality of values is reflexive and symmetric, and it is transitive but for two
whole numbers that meet at a binary number which one of them is rounded to.  An edit of a number is
dropped only for the same number, or where one of the two is rounded to the other. -/
theorem numbers_compare_rounded (a b : Number) (u v w : Value) (s : State) (g id : String)
    (now : ℕ) :
    ((a.equals b = true ↔ a.toRat = b.toRat) ↔ ¬(a.RoundsTo b ∨ b.RoundsTo a)) ∧
    (∀ (n : Whole) (x : Binary64), (Number.whole n).RoundsTo (.real x) →
      2 ^ 53 < n.value.natAbs ∧ ∀ y : Binary64, y.toRat ≠ n.value ∧
        |(n.value : ℚ) - x.toRat| ≤ |(n.value : ℚ) - y.toRat|) ∧
    (v.proper = true → v.equals v = true) ∧
    (v.proper = true → w.proper = true → v.equals w = w.equals v) ∧
    (u.equals v = true → v.equals w = true →
      u.equals w = true ∨ ∃ m x n, u = .number (.whole m) ∧ v = .number (.real x) ∧
        w = .number (.whole n) ∧ m ≠ n ∧
        ((Number.whole m).RoundsTo (.real x) ∨ (Number.whole n).RoundsTo (.real x))) ∧
    (s.Kept → ∀ x, s.setting? g id = some x → x.value.value = .number a →
      let e := (s.reduce now (.edit g id (.number b))).edit? g id
      (e = none ↔ a.toRat = b.toRat ∨ a.RoundsTo b ∨ b.RoundsTo a) ∧
        ∀ e', e = some e' → e'.equals (.number b) = true) := by
  refine ⟨a.compared_by_value_iff b, fun _ _ => Number.RoundsTo.spec, Value.equals_self,
    Value.equals_comm, Value.equals_trans_or, fun hs x hx ha => ?_⟩
  rw [← Number.equals_iff]
  exact State.edit?_edit_number hs hx ha now b

/-- The binary number `2 ^ 53`. -/
def evenBinary : Binary64 := ⟨false, 1076 <<< 52, by decide⟩

/-- The same as a whole number. -/
def evenWhole : Whole := ⟨9_007_199_254_740_992, by decide, by decide⟩

/-- The next whole number, which lies halfway between two binary numbers. -/
def oddWhole : Whole := ⟨9_007_199_254_740_993, by decide, by decide⟩

/-- A setting is reported to be the binary number. -/
def evenReported : State :=
  State.empty.reduce 1 (.receiveSettings "g" [{ id := "a", value := .number (.real evenBinary) }])

theorem toRat_evenBinary : evenBinary.toRat = 9_007_199_254_740_992 := by
  have hunits : evenBinary.signedUnits = 9_007_199_254_740_992 * Binary64.unitsPerOne := by
    decide +kernel
  rw [Binary64.toRat, hunits]
  push_cast
  exact mul_div_cancel_right₀ _ Binary64.unitsPerOne_pos_rat.ne'

theorem oddWhole_roundsTo : (Number.whole oddWhole).RoundsTo (.real evenBinary) := by
  refine ⟨Binary64.toRat_eq_iff.mpr (by decide +kernel), ?_⟩
  rw [toRat_evenBinary, oddWhole]
  norm_num

/-- A whole number and the binary number before it compare equal, the edit of the one is dropped
for the other, and two whole numbers compare equal to one binary number but not to each other. -/
theorem unequal_numbers_compare_equal :
    (Number.whole oddWhole).toRat ≠ (Number.real evenBinary).toRat ∧
      (Value.number (.whole oddWhole)).equals (.number (.real evenBinary)) = true ∧
      (Value.number (.real evenBinary)).equals (.number (.whole evenWhole)) = true ∧
      (Value.number (.whole oddWhole)).equals (.number (.whole evenWhole)) = false ∧
      (evenReported.reduce 2 (.edit "g" "a" (.number (.whole oddWhole)))).edit? "g" "a" = none := by
  refine ⟨oddWhole_roundsTo.2.symm, by decide +kernel, by decide +kernel, by decide +kernel, ?_⟩
  exact (State.edit?_edit_number (State.Kept.empty.reduce 1 _) rfl rfl 2 (.whole oddWhole)).1.mpr
    (by decide +kernel)

/-- No binary number is equal to the odd number, and its edit is dropped for the number before. -/
theorem odd_number_is_rounded :
    (Number.whole oddWhole).RoundsTo (.real evenBinary) ∧
      (∀ y : Binary64, y.toRat ≠ oddWhole.value) ∧ evenReported.Kept ∧
      (evenReported.reduce 2 (.edit "g" "a" (.number (.whole oddWhole)))).edit? "g" "a" = none := by
  have hkept : evenReported.Kept := State.Kept.empty.reduce 1 _
  obtain ⟨-, hrounds, -, -, -, hedits⟩ := numbers_compare_rounded (.real evenBinary)
    (.whole oddWhole) .absent .absent .absent evenReported "g" "a" 2
  exact ⟨oddWhole_roundsTo, fun y => ((hrounds _ _ oddWhole_roundsTo).2 y).1, hkept,
    (hedits hkept ⟨⟨1, 0⟩, { id := "a", value := .number (.real evenBinary) }⟩ rfl rfl).1.mpr
      (Or.inr (Or.inr oddWhole_roundsTo))⟩

end RemoteSettings
