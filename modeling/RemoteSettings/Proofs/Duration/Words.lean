import Mathlib.Algebra.BigOperators.Group.List.Basic
import Mathlib.Algebra.Ring.Nat
import RemoteSettings.Duration.Words
import RemoteSettings.Proofs.Number.Digits
import RemoteSettings.Proofs.Reading

/-!
# Durations are read as they are written

A duration is split into years, the months in what is left of a year, and so on, down to
nanoseconds.  A month is no fraction of a year, and a day none of a month, but each part is what the
units above it leave, so that the parts add up to the whole.  Reading adds them one by one, and
every sum on the way is at most the whole.  So nothing overflows that did not overflow before.

## Main definitions

* `Duration.Term` — an amount of a unit.
* `Duration.amounts` — the terms that a duration is written as.
* `Duration.total` — a duration in nanoseconds.

## Main results

* `Duration.sum_amounts` — **the terms add up to the duration**.
* `Duration.words_eq` — a duration is written as its terms.
* `Duration.ofWords_words` — **a duration is read as it was written**, if its seconds fit 64 bits.
* `Duration.seconds_lt_of_ofWords` — the seconds of every duration that is read fit 64 bits.
-/

namespace RemoteSettings

namespace TimeUnit

/-- The name by which an amount of a unit is written. -/
def written (n : Nat) : TimeUnit → String
  | .nanosecond => "ns"
  | .microsecond => "us"
  | .millisecond => "ms"
  | .second => "s"
  | .minute => "m"
  | .hour => "h"
  | .day => if n = 1 then "day" else "days"
  | .week => if n = 1 then "week" else "weeks"
  | .month => if n = 1 then "month" else "months"
  | .year => if n = 1 then "year" else "years"

/-- The units in which durations are written. -/
def inUse : List TimeUnit :=
  [.year, .month, .day, .hour, .minute, .second, .millisecond, .microsecond, .nanosecond]

/-- The nanoseconds of a unit. -/
def nanos (u : TimeUnit) : Nat := if u.isSmall then u.size else u.size * 1_000_000_000

/-- A unit is known by the name by which it is written. -/
theorem lookup_written (n : Nat) (u : TimeUnit) : names.lookup (u.written n) = some u := by
  cases u <;> rw [written] <;> first | rfl | (split <;> rfl)

theorem written_ne_nil (n : Nat) (u : TimeUnit) : (u.written n).toList ≠ [] := by
  cases u <;> rw [written] <;> first | decide | (split <;> decide)

/-- The name of a unit consists of letters; it is told from the digits before it and from the blank
behind it. -/
theorem letter_of_mem_written {n : Nat} {u : TimeUnit} {c : Char}
    (h : c ∈ (u.written n).toList) : Duration.Words.isLetter c = true ∧
      Digits.value? 10 c = none ∧ Blank.isBlank c = false ∧ c ≠ '.' := by
  have hall : ((u.written n).toList.all fun c => Duration.Words.isLetter c &&
      (Digits.value? 10 c == none && (Blank.isBlank c == false && c != '.'))) = true := by
    cases u <;> rw [written] <;> first | rfl | (split <;> rfl)
  have hc := List.all_eq_true.mp hall c h
  simp only [Bool.and_eq_true, beq_iff_eq, bne_iff_ne] at hc
  exact hc

end TimeUnit

namespace Duration

/-- A duration in nanoseconds. -/
def total (d : Duration) : Nat := d.seconds * 1_000_000_000 + d.nanos

theorem total_injective : Function.Injective total := by
  rintro ⟨s, n, hn⟩ ⟨t, m, hm⟩ h
  simp only [total] at h
  obtain ⟨rfl, rfl⟩ : s = t ∧ n = m := by omega
  rfl

theorem total_ofNanos (s n : Nat) : (ofNanos s n).total = s * 1_000_000_000 + n := by
  simp only [total, ofNanos]
  omega

/-! ### Terms -/

/-- An amount of a unit. -/
structure Term where
  amount : Nat
  unit : TimeUnit
  deriving DecidableEq

namespace Term

/-- A term as it is written. -/
def text (t : Term) : String := toString t.amount ++ t.unit.written t.amount

/-- The nanoseconds of a term. -/
def nanos (t : Term) : Nat := t.amount * t.unit.nanos

theorem nanos_of_large {n : Nat} {u : TimeUnit} (h : u.isSmall = false) :
    nanos ⟨n, u⟩ = n * u.size * 1_000_000_000 := by
  rw [nanos, TimeUnit.nanos, if_neg (Bool.eq_false_iff.mp h), Nat.mul_assoc]

theorem nanos_of_small {n : Nat} {u : TimeUnit} (h : u.isSmall = true) :
    nanos ⟨n, u⟩ = n * u.size := by
  rw [nanos, TimeUnit.nanos, if_pos h]

theorem toList_text (t : Term) : t.text.toList =
    (Digits.ofNat t.amount).map Nat.digitChar ++ (t.unit.written t.amount).toList := by
  rw [text, String.toList_append, Nat.toString_eq_ofList_toDigits, String.toList_ofList,
    Digits.toDigits_eq_map]

end Term

/-- How much there is of each unit, beyond what makes a greater one. -/
def parts (d : Duration) : List Term :=
  let inYear := d.seconds % 31557600
  let inMonth := inYear % 2630016
  let inDay := inMonth % 86400
  [⟨d.seconds / 31557600, .year⟩, ⟨inYear / 2630016, .month⟩, ⟨inMonth / 86400, .day⟩,
    ⟨inDay / 3600, .hour⟩, ⟨inDay % 3600 / 60, .minute⟩, ⟨inDay % 60, .second⟩,
    ⟨d.nanos / 1_000_000, .millisecond⟩, ⟨d.nanos / 1_000 % 1_000, .microsecond⟩,
    ⟨d.nanos % 1_000, .nanosecond⟩]

/-- The terms that a duration is written as. -/
def amounts (d : Duration) : List Term :=
  if d.isZero then [⟨0, .second⟩] else d.parts.filter (0 < ·.amount)

theorem isZero_iff {d : Duration} : d.isZero = true ↔ d.total = 0 := by
  rw [isZero, Bool.and_eq_true, beq_iff_eq, beq_iff_eq, total]
  omega

/-- Each unit leaves a rest, which the units below it make up. -/
theorem sum_seconds (s : Nat) :
    s / 31557600 * 31557600 + s % 31557600 / 2630016 * 2630016
      + s % 31557600 % 2630016 / 86400 * 86400 + s % 31557600 % 2630016 % 86400 / 3600 * 3600
      + s % 31557600 % 2630016 % 86400 % 3600 / 60 * 60
      + s % 31557600 % 2630016 % 86400 % 60 = s := by
  omega

theorem sum_nanos (n : Nat) :
    n / 1_000_000 * 1_000_000 + n / 1_000 % 1_000 * 1_000 + n % 1_000 = n := by
  omega

/-- What amounts of all units come to. -/
theorem sum_units (y mo d h m s ms us ns : Nat) :
    (([⟨y, .year⟩, ⟨mo, .month⟩, ⟨d, .day⟩, ⟨h, .hour⟩, ⟨m, .minute⟩, ⟨s, .second⟩,
      ⟨ms, .millisecond⟩, ⟨us, .microsecond⟩, ⟨ns, .nanosecond⟩] : List Term).map Term.nanos).sum =
    (y * 31557600 + mo * 2630016 + d * 86400 + h * 3600 + m * 60 + s) * 1_000_000_000 +
      (ms * 1_000_000 + us * 1_000 + ns) := by
  -- The steps are proved, as they cannot be computed: some of these numbers are large.
  simp -implicitDefEqProofs (disch := decide) only [List.map_cons, List.map_nil, List.sum_cons,
    List.sum_nil, Term.nanos_of_large, Term.nanos_of_small, TimeUnit.size]
  omega

theorem sum_parts (d : Duration) : (d.parts.map Term.nanos).sum = d.total := by
  rw [parts, sum_units, sum_seconds, sum_nanos, total]

/-- Terms of nothing do not count. -/
theorem sum_filter_pos (ts : List Term) :
    ((ts.filter (0 < ·.amount)).map Term.nanos).sum = (ts.map Term.nanos).sum := by
  induction ts with
  | nil => rfl
  | cons t ts ih =>
    rw [List.map_cons, List.sum_cons, ← ih, List.filter_cons]
    split
    · rw [List.map_cons, List.sum_cons]
    · next h =>
      have hzero : t.amount = 0 := by simpa using h
      rw [Term.nanos, hzero, Nat.zero_mul, Nat.zero_add]

/-- **The terms add up to the duration.** -/
theorem sum_amounts (d : Duration) : (d.amounts.map Term.nanos).sum = d.total := by
  rw [amounts]
  split
  · next h =>
    rw [isZero_iff.mp h]
    rfl
  · rw [sum_filter_pos, sum_parts]

/-- No unit comes twice, and greater units come first. -/
theorem units_amounts (d : Duration) : (d.amounts.map Term.unit).Sublist TimeUnit.inUse := by
  rw [amounts]
  split
  · exact (by decide : [TimeUnit.second].Sublist TimeUnit.inUse)
  · exact List.filter_sublist.map Term.unit

/-- There is something of each unit that is written, unless the duration is empty. -/
theorem amount_pos_of_mem {d : Duration} (hd : d.isZero = false) {t : Term} (ht : t ∈ d.amounts) :
    0 < t.amount := by
  rw [amounts, if_neg (Bool.eq_false_iff.mp hd)] at ht
  simpa using (List.mem_filter.mp ht).2

theorem amounts_ne_nil (d : Duration) : d.amounts ≠ [] := by
  intro h
  have hsum := d.sum_amounts
  rw [h] at hsum
  rw [amounts, if_pos (isZero_iff.mpr hsum.symm)] at h
  cases h

/-- Of the units below a second there is less than a second. -/
theorem nanos_lt_of_isSmall {d : Duration} {t : Term} (ht : t ∈ d.amounts)
    (hsmall : t.unit.isSmall = true) : t.nanos < 1_000_000_000 := by
  have hnanos := d.nanos_lt
  rw [amounts] at ht
  split at ht
  · rw [List.mem_singleton] at ht
    subst ht
    cases hsmall
  · have hpart := List.mem_of_mem_filter ht
    simp only [parts, List.mem_cons, List.not_mem_nil, or_false] at hpart
    rcases hpart with rfl | rfl | rfl | rfl | rfl | rfl | rfl | rfl | rfl
    case inr.inr.inr.inr.inr.inr.inl | inr.inr.inr.inr.inr.inr.inr.inl |
      inr.inr.inr.inr.inr.inr.inr.inr =>
      rw [Term.nanos_of_small rfl, TimeUnit.size]
      omega
    all_goals cases hsmall

/-- No amount is more than the seconds or the nanoseconds that it is taken from. -/
theorem amount_lt_of_mem {d : Duration} (hd : d.seconds < 2 ^ 64) {t : Term} (ht : t ∈ d.amounts) :
    t.amount < 2 ^ 64 := by
  have hnanos := d.nanos_lt
  rw [amounts] at ht
  split at ht
  · rw [List.mem_singleton] at ht
    rw [ht]
    decide
  · have hpart := List.mem_of_mem_filter ht
    simp only [parts, List.mem_cons, List.not_mem_nil, or_false] at hpart
    rcases hpart with rfl | rfl | rfl | rfl | rfl | rfl | rfl | rfl | rfl <;> dsimp only <;> omega

/-! ### Writing -/

theorem term_eq (n : Nat) (u : TimeUnit) :
    term n (u.written n) = ([⟨n, u⟩].filter (0 < ·.amount)).map Term.text := by
  rw [term]
  split
  · next h => simp [h]
  · next h => simp [Nat.pos_of_ne_zero h, Term.text]

theorem wordList_eq (d : Duration) :
    d.wordList = (d.parts.filter (0 < ·.amount)).map Term.text := by
  have hsplit : ∀ (t : Term) (ts : List Term), ((t :: ts).filter (0 < ·.amount)).map Term.text =
      term t.amount (t.unit.written t.amount) ++ (ts.filter (0 < ·.amount)).map Term.text := by
    intro t ts
    rw [term_eq, ← List.map_append, ← List.filter_append, List.singleton_append]
  simp only [parts, hsplit, List.filter_nil, List.map_nil, List.append_nil]
  simp only [wordList, List.append_assoc]
  -- A plural is put where the amount is not one.
  have hplural : ∀ (n : Nat) (one many : String), one ++ "s" = many →
      pluralTerm n one = term n (if n = 1 then one else many) := by
    rintro n one many rfl
    rfl
  rw [hplural _ "year" "years" rfl, hplural _ "month" "months" rfl, hplural _ "day" "days" rfl]
  rfl

/-- A duration is written as its terms. -/
theorem words_eq (d : Duration) : d.words = " ".intercalate (d.amounts.map Term.text) := by
  rw [words, amounts]
  split
  · rfl
  · rw [wordList_eq]

/-- The characters of terms with blanks between them. -/
def spelled : List Term → List Char
  | [] => []
  | [t] => t.text.toList
  | t :: u :: ts => t.text.toList ++ ' ' :: spelled (u :: ts)

theorem toList_intercalate (ts : List Term) :
    (" ".intercalate (ts.map Term.text)).toList = spelled ts := by
  rw [String.toList_intercalate]
  induction ts with
  | nil => rfl
  | cons t ts ih =>
    cases ts with
    | nil => simp [spelled]
    | cons u ts =>
      rw [spelled, ← ih]
      simp [List.intercalate]

/-! ### Reading -/

namespace Words

theorem checked_eq_ok {n : Nat} (h : n < 2 ^ 64) : checked n = .ok n :=
  if_pos (by rwa [Nat.one_shiftLeft])

theorem lt_of_checked {n m : Nat} (h : checked n = .ok m) : m = n ∧ m < 2 ^ 64 := by
  unfold checked at h
  split at h
  · next hlt =>
    cases h
    exact ⟨rfl, by rwa [Nat.one_shiftLeft] at hlt⟩
  · cases h

theorem map_fst_place (n : Nat) (cs : List Char) : (place n cs).map Prod.fst = cs := by
  induction cs generalizing n with
  | nil => rfl
  | cons c cs ih => rw [place, List.map_cons, ih]

/-- Digits are read up to something that is neither a digit nor blank. -/
theorem numeral_eq {ds : List Nat} {c : Char} {rest : List Char} {s : List Placed}
    (hds : ∀ d ∈ ds, d < 10) (hc : Digits.value? 10 c = none) (hblank : Blank.isBlank c = false)
    (hs : s.map Prod.fst = ds.map Nat.digitChar ++ c :: rest) :
    ∃ s', numeral s = (ds, s') ∧ s'.map Prod.fst = c :: rest := by
  induction ds generalizing s with
  | nil =>
    obtain ⟨⟨x, n⟩, s', rfl, hx, -⟩ := List.map_eq_cons_iff.mp hs
    obtain rfl : x = c := hx
    refine ⟨_, ?_, hs⟩
    rw [numeral, hc, hblank]
    rfl
  | cons d ds ih =>
    obtain ⟨⟨x, n⟩, s', rfl, hx, hs'⟩ := List.map_eq_cons_iff.mp hs
    obtain rfl : x = Nat.digitChar d := hx
    obtain ⟨hd, hds⟩ := List.forall_mem_cons.mp hds
    obtain ⟨rest', hread, hrest⟩ := ih hds hs'
    refine ⟨rest', ?_, hrest⟩
    rw [numeral, Digits.value?_digitChar d hd, hread]

/-- Where no point stands there is no fraction. -/
theorem fraction_eq {ending : Nat} {c : Char} {rest : List Char} {s : List Placed} (hc : c ≠ '.')
    (hs : s.map Prod.fst = c :: rest) : fraction ending s = .ok ([], s) := by
  obtain ⟨⟨x, n⟩, s', rfl, hx, -⟩ := List.map_eq_cons_iff.mp hs
  obtain rfl : x = c := hx
  rw [fraction]
  rintro point rest' ⟨⟩
  exact hc rfl

/-- A name is read up to something that is no letter. -/
theorem name_eq {name rest : List Char} {s : List Placed} (hname : ∀ c ∈ name, isLetter c = true)
    (hrest : rest = [] ∨ ∃ more, rest = ' ' :: more) (hs : s.map Prod.fst = name ++ rest) :
    (s.takeWhile (isLetter ·.1)).map Prod.fst = name ∧
      (s.dropWhile (isLetter ·.1)).map Prod.fst = rest := by
  constructor
  · have htake := List.takeWhile_map (f := Prod.fst) (p := isLetter) (l := s)
    rw [hs, List.takeWhile_append_of_pos hname] at htake
    refine htake.symm.trans ?_
    rcases hrest with rfl | ⟨more, rfl⟩
    · exact List.append_nil name
    · exact List.append_nil name
  · have hdrop := List.dropWhile_map (f := Prod.fst) (p := isLetter) (l := s)
    rw [hs, List.dropWhile_append_of_pos hname] at hdrop
    refine hdrop.symm.trans ?_
    rcases hrest with rfl | ⟨more, rfl⟩ <;> rfl

/-- Seconds and nanoseconds are added if nothing overflows. -/
theorem add_eq_ok {d : Duration} {s n : Nat} (hnanos : d.nanos + n < 2 ^ 64)
    (hseconds : s + d.seconds + (d.nanos + n) / 1_000_000_000 < 2 ^ 64) :
    ∃ e, add d s n = .ok e ∧ e.total = d.total + s * 1_000_000_000 + n := by
  refine ⟨_, ?_, total_ofNanos (s + d.seconds + (d.nanos + n) / 1_000_000_000)
    ((d.nanos + n) % 1_000_000_000) |>.trans ?_⟩
  · rw [add, checked_eq_ok hnanos]
    show (checked (s + d.seconds + (d.nanos + n) / 1_000_000_000) >>= _) = _
    rw [checked_eq_ok hseconds]
    rfl
  · rw [total]
    omega

/-- A term without a fraction is a whole amount. -/
theorem addTerm_nil (d : Duration) (u : TimeUnit) (n : Nat) : addTerm d u n [] =
    checked (n * u.size) >>= fun amount =>
      if u.isSmall then add d 0 amount else add d amount 0 := by
  rw [addTerm]
  refine congrArg (checked (n * u.size) >>= ·) (funext fun amount => ?_)
  show (if u.isSmall then add d 0 amount >>= Except.ok else add d amount 0 >>= Except.ok) = _
  split
  · exact bind_pure (add d 0 amount)
  · exact bind_pure (add d amount 0)

/-- A term is added if the sum fits, and what is below a second is less than one. -/
theorem addTerm_eq_ok {d : Duration} {t : Term}
    (hsum : d.total + t.nanos < 2 ^ 64 * 1_000_000_000)
    (hsmall : t.unit.isSmall = true → t.nanos < 1_000_000_000) :
    ∃ e, addTerm d t.unit t.amount [] = .ok e ∧ e.total = d.total + t.nanos := by
  have hd := d.nanos_lt
  rw [total] at hsum
  rw [addTerm_nil]
  cases hunit : t.unit.isSmall with
  | true =>
    have hnanos : t.nanos = t.amount * t.unit.size := Term.nanos_of_small hunit
    have hlt := hsmall hunit
    obtain ⟨e, hadd, htotal⟩ := add_eq_ok (d := d) (s := 0) (n := t.nanos) (by omega) (by omega)
    refine ⟨e, ?_, by rw [htotal, Nat.zero_mul, Nat.add_zero]⟩
    have hfit : t.amount * t.unit.size < 2 ^ 64 := by omega
    rw [checked_eq_ok hfit, ← hnanos]
    exact hadd
  | false =>
    have hnanos : t.nanos = t.amount * t.unit.size * 1_000_000_000 := Term.nanos_of_large hunit
    obtain ⟨e, hadd, htotal⟩ := add_eq_ok (d := d) (s := t.amount * t.unit.size) (n := 0)
      (by omega) (by omega)
    refine ⟨e, ?_, by rw [htotal, hnanos, Nat.add_zero]⟩
    have hfit : t.amount * t.unit.size < 2 ^ 64 := by omega
    rw [checked_eq_ok hfit]
    exact hadd

/-- Adds terms one after another. -/
def addAll (d : Duration) (ts : List Term) : Except Problem Duration :=
  ts.foldlM (fun d t => addTerm d t.unit t.amount []) d

/-- Terms are added if their sum fits, since no sum on the way is greater. -/
theorem addAll_eq_ok {d : Duration} {ts : List Term}
    (hsum : d.total + (ts.map Term.nanos).sum < 2 ^ 64 * 1_000_000_000)
    (hsmall : ∀ t ∈ ts, t.unit.isSmall = true → t.nanos < 1_000_000_000) :
    ∃ e, addAll d ts = .ok e ∧ e.total = d.total + (ts.map Term.nanos).sum := by
  induction ts generalizing d with
  | nil => exact ⟨d, rfl, (Nat.add_zero _).symm⟩
  | cons t ts ih =>
    rw [List.map_cons, List.sum_cons] at hsum ⊢
    obtain ⟨ht, hts⟩ := List.forall_mem_cons.mp hsmall
    rw [← Nat.add_assoc] at hsum ⊢
    obtain ⟨e, hadd, htotal⟩ := addTerm_eq_ok (Nat.lt_of_le_of_lt (Nat.le_add_right _ _) hsum) ht
    rw [← htotal] at hsum ⊢
    obtain ⟨f, haddAll, hrest⟩ := ih hsum hts
    refine ⟨f, ?_, hrest⟩
    rw [addAll, List.foldlM_cons, hadd]
    exact haddAll

/-- A term is taken apart into its amount and the name of its unit. -/
theorem exists_numeral (ending : Nat) {t : Term} {rest : List Char} {s : List Placed}
    (hrest : rest = [] ∨ ∃ more, rest = ' ' :: more)
    (hs : s.map Prod.fst = t.text.toList ++ rest) :
    ∃ s', numeral s = (Digits.ofNat t.amount, s') ∧ fraction ending s' = .ok ([], s') ∧
      (s'.takeWhile (isLetter ·.1)).map Prod.fst = (t.unit.written t.amount).toList ∧
      (s'.dropWhile (isLetter ·.1)).map Prod.fst = rest := by
  have hletter : ∀ c ∈ (t.unit.written t.amount).toList, isLetter c = true :=
    fun c hc => (TimeUnit.letter_of_mem_written hc).1
  obtain ⟨c, name, hname⟩ := List.exists_cons_of_ne_nil
    (TimeUnit.written_ne_nil t.amount t.unit)
  have hmem : c ∈ (t.unit.written t.amount).toList := by
    rw [hname]
    exact List.mem_cons_self
  obtain ⟨-, hdigit, hblank, hpoint⟩ := TimeUnit.letter_of_mem_written hmem
  have hsplit : s.map Prod.fst =
      (Digits.ofNat t.amount).map Nat.digitChar ++ c :: (name ++ rest) := by
    rw [hs, t.toList_text, hname, List.append_assoc, List.cons_append]
  obtain ⟨s', hread, hs'⟩ :=
    numeral_eq (fun d => Digits.lt_ten_of_mem_ofNat) hdigit hblank hsplit
  refine ⟨s', hread, fraction_eq hpoint hs', name_eq hletter hrest ?_⟩
  rw [hs', hname, List.cons_append]

theorem addNamed_written (d : Duration) (n m : Nat) (u : TimeUnit) (fraction : List Nat) :
    addNamed d n fraction (u.written m).toList = addTerm d u n fraction := by
  rw [addNamed, String.ofList_toList, TimeUnit.lookup_written]

/-- What is written begins with a digit. -/
theorem exists_digit (t : Term) (ts : List Term) :
    ∃ k < 10, ∃ rest, spelled (t :: ts) = Nat.digitChar k :: rest := by
  obtain ⟨k, ds, hds⟩ := List.exists_cons_of_ne_nil (Digits.ofNat_ne_nil t.amount)
  have hk : k < 10 := Digits.lt_ten_of_mem_ofNat (by rw [hds]; exact List.mem_cons_self)
  refine ⟨k, hk, ?_⟩
  cases ts with
  | nil =>
    rw [spelled, t.toList_text, hds]
    exact ⟨_, rfl⟩
  | cons u ts =>
    rw [spelled, t.toList_text, hds]
    exact ⟨_, rfl⟩

theorem isBlank_digitChar : ∀ k < 10, Blank.isBlank (Nat.digitChar k) = false := by decide

/-- Terms that are written with a blank between them are added one after another. -/
theorem terms_eq (ending : Nat) {fuel : Nat} {d : Duration} {t : Term} {ts : List Term}
    {s : List Placed} (hs : s.map Prod.fst = spelled (t :: ts)) (hfuel : ts.length < fuel)
    (hfit : ∀ u ∈ t :: ts, u.amount < 2 ^ 64) : terms ending fuel d s = addAll d (t :: ts) := by
  induction ts generalizing t d fuel s with
  | nil =>
    obtain ⟨fuel, rfl⟩ := Nat.exists_eq_add_one_of_ne_zero (Nat.ne_of_gt hfuel)
    obtain ⟨s', hread, hfraction, hname, hrest⟩ := exists_numeral ending (Or.inl rfl)
      (hs.trans (List.append_nil _).symm)
    have hamount := hfit t List.mem_cons_self
    simp only [terms, hread, Digits.toNat_ofNat, checked_eq_ok hamount, bind, Except.bind,
      hfraction, hname, List.map_eq_nil_iff.mp hrest]
    rw [addNamed_written, addAll, List.foldlM_cons]
    exact (bind_pure _).symm
  | cons u ts ih =>
    obtain ⟨fuel, rfl⟩ := Nat.exists_eq_add_one_of_ne_zero (Nat.ne_zero_of_lt hfuel)
    obtain ⟨s', hread, hfraction, hname, hrest⟩ := exists_numeral ending
      (Or.inr ⟨spelled (u :: ts), rfl⟩) hs
    have hamount := hfit t List.mem_cons_self
    obtain ⟨⟨x, n⟩, more, hdrop, hx, hmore⟩ := List.map_eq_cons_iff.mp hrest
    obtain rfl : x = ' ' := hx
    obtain ⟨c, name, hname'⟩ := List.exists_cons_of_ne_nil
      (TimeUnit.written_ne_nil t.amount t.unit)
    -- One blank is passed over, up to the digit that the next term begins with.
    obtain ⟨k, hk, rest, hdigit⟩ := exists_digit u ts
    obtain ⟨⟨y, m⟩, rest', rfl, hy, -⟩ := List.map_eq_cons_iff.mp (hmore.trans hdigit)
    obtain rfl : y = Nat.digitChar k := hy
    have hnext := fun e => ih (d := e) hmore (Nat.lt_of_succ_lt_succ hfuel)
      (fun u hu => hfit u (List.mem_cons_of_mem t hu))
    simp only [terms, hread, Digits.toNat_ofNat, checked_eq_ok hamount, bind, Except.bind,
      hfraction, hname, hdrop]
    rw [addNamed_written, hname', addAll, List.foldlM_cons]
    cases addTerm d t.unit t.amount [] with
    | error p => rfl
    | ok e =>
      have hstop : ((Nat.digitChar k, m) :: rest').dropWhile (fun x => Blank.isBlank x.1) =
          (Nat.digitChar k, m) :: rest' :=
        List.dropWhile_cons_of_neg (Bool.eq_false_iff.mp (isBlank_digitChar k hk))
      have hspace : Digits.value? 10 ' ' = none := by decide
      have hblank : Blank.isBlank ' ' = true := by decide
      simp only [hspace, hblank, hstop, Digits.value?_digitChar k hk, Option.isSome_none,
        Option.isSome_some, Bool.false_eq_true, if_false, if_true]
      exact hnext e

theorem length_spelled (t : Term) (ts : List Term) : ts.length < (spelled (t :: ts)).length := by
  induction ts generalizing t with
  | nil =>
    obtain ⟨k, -, rest, h⟩ := exists_digit t []
    rw [h]
    exact Nat.succ_pos _
  | cons u ts ih =>
    have hlt := ih u
    rw [spelled, List.length_append, List.length_cons, List.length_cons]
    omega

/-- What is written is more than a zero. -/
theorem spelled_ne_zero (t : Term) (ts : List Term) : spelled (t :: ts) ≠ ['0'] := by
  obtain ⟨c, name, hname⟩ := List.exists_cons_of_ne_nil
    (TimeUnit.written_ne_nil t.amount t.unit)
  have hmem : c ∈ (t.unit.written t.amount).toList := by
    rw [hname]
    exact List.mem_cons_self
  have htext : c ∈ t.text.toList := by
    rw [t.toList_text]
    exact List.mem_append_right _ hmem
  have hspelled : c ∈ spelled (t :: ts) := by
    cases ts with
    | nil => exact htext
    | cons u ts => exact List.mem_append_left _ htext
  intro hzero
  rw [hzero, List.mem_singleton] at hspelled
  obtain ⟨hletter, -⟩ := TimeUnit.letter_of_mem_written hmem
  rw [hspelled] at hletter
  revert hletter
  decide

/-- Text that is written as terms is read as terms. -/
theorem ofWords_eq {text : String} {t : Term} {ts : List Term}
    (htext : text.toList = spelled (t :: ts)) (hfit : ∀ u ∈ t :: ts, u.amount < 2 ^ 64) :
    ofWords text = addAll (ofSeconds 0) (t :: ts) := by
  obtain ⟨k, hk, rest, hdigit⟩ := exists_digit t ts
  have hplaced : (place 0 text.toList).map Prod.fst = spelled (t :: ts) := by
    rw [map_fst_place, htext]
  obtain ⟨⟨x, n⟩, more, hcons, hx, -⟩ := List.map_eq_cons_iff.mp (hplaced.trans hdigit)
  obtain rfl : x = Nat.digitChar k := hx
  have hstop : ((Nat.digitChar k, n) :: more).dropWhile (fun x => Blank.isBlank x.1) =
      (Nat.digitChar k, n) :: more :=
    List.dropWhile_cons_of_neg (Bool.eq_false_iff.mp (isBlank_digitChar k hk))
  have hfuel : ts.length < text.toList.length := htext ▸ length_spelled t ts
  rw [← terms_eq text.utf8ByteSize hplaced hfuel hfit]
  simp only [ofWords, if_neg (htext ▸ spelled_ne_zero t ts), hcons, hstop,
    Digits.value?_digitChar k hk, Option.isSome_some, if_true]

/-! ### What is read -/

theorem seconds_lt_of_add {d e : Duration} {s n : Nat} (h : add d s n = .ok e) :
    e.seconds < 2 ^ 64 := by
  obtain ⟨nanos, -, h⟩ := bind_eq_ok h
  obtain ⟨seconds, hseconds, h⟩ := bind_eq_ok h
  cases h
  have hlt := (lt_of_checked hseconds).2
  show seconds + nanos % 1_000_000_000 / 1_000_000_000 < 2 ^ 64
  omega

theorem seconds_lt_of_addTerm {d e : Duration} {u : TimeUnit} {n : Nat} {fraction : List Nat}
    (h : addTerm d u n fraction = .ok e) : e.seconds < 2 ^ 64 := by
  obtain ⟨amount, -, h⟩ := bind_eq_ok h
  dsimp only at h
  -- Without a fraction the whole amount is added last, else the fraction.
  split at h
  · obtain ⟨f, hf, h⟩ := bind_eq_ok h
    split at h
    · cases h
      exact seconds_lt_of_add hf
    · split at h
      · cases h
      · obtain ⟨_, -, h⟩ := bind_eq_ok h
        exact seconds_lt_of_add h
  · obtain ⟨f, hf, h⟩ := bind_eq_ok h
    split at h
    · cases h
      exact seconds_lt_of_add hf
    · split at h
      · cases h
      · split at h
        · obtain ⟨_, -, h⟩ := bind_eq_ok h
          exact seconds_lt_of_add h
        · obtain ⟨_, -, h⟩ := bind_eq_ok h
          exact seconds_lt_of_add h

theorem seconds_lt_of_addNamed {d e : Duration} {n : Nat} {fraction : List Nat} {name : List Char}
    (h : addNamed d n fraction name = .ok e) : e.seconds < 2 ^ 64 := by
  unfold addNamed at h
  split at h
  · exact seconds_lt_of_addTerm h
  · cases h

theorem seconds_lt_of_terms {ending fuel : Nat} {d e : Duration} {s : List Placed}
    (h : terms ending fuel d s = .ok e) : e.seconds < 2 ^ 64 := by
  induction fuel generalizing d s with
  | zero => cases h
  | succ fuel ih =>
    rw [terms] at h
    obtain ⟨n, -, h⟩ := bind_eq_ok h
    obtain ⟨⟨fraction, rest⟩, -, h⟩ := bind_eq_ok h
    dsimp only at h
    split at h
    · exact seconds_lt_of_addNamed h
    · cases h
    · split at h
      · obtain ⟨f, -, h⟩ := bind_eq_ok h
        exact ih h
      · split at h
        · obtain ⟨f, hf, h⟩ := bind_eq_ok h
          split at h
          · cases h
            exact seconds_lt_of_addNamed hf
          · split at h
            · exact ih h
            · cases h
        · cases h

end Words

/-- **A duration is read as it was written**, if its seconds fit 64 bits. -/
theorem ofWords_words {d : Duration} (hd : d.seconds < 2 ^ 64) : ofWords d.words = .ok d := by
  obtain ⟨t, ts, hamounts⟩ := List.exists_cons_of_ne_nil d.amounts_ne_nil
  have htext : d.words.toList = spelled (t :: ts) := by
    rw [words_eq, toList_intercalate, hamounts]
  have hlimit : d.total < 2 ^ 64 * 1_000_000_000 := by
    have hnanos := d.nanos_lt
    rw [total]
    omega
  have hfit : ∀ u ∈ t :: ts, u.amount < 2 ^ 64 := fun u hu =>
    amount_lt_of_mem hd (hamounts ▸ hu)
  have hsum : (ofSeconds 0).total + (d.amounts.map Term.nanos).sum < 2 ^ 64 * 1_000_000_000 := by
    rw [d.sum_amounts]
    exact lt_of_eq_of_lt (Nat.zero_add _) hlimit
  obtain ⟨e, hadd, htotal⟩ := Words.addAll_eq_ok hsum fun u hu => nanos_lt_of_isSmall hu
  have he : e = d := total_injective (htotal.trans (by rw [d.sum_amounts]; exact Nat.zero_add _))
  rw [Words.ofWords_eq htext hfit, ← hamounts, hadd, he]

/-- The seconds of every duration that is read fit 64 bits. -/
theorem seconds_lt_of_ofWords {text : String} {d : Duration} (h : ofWords text = .ok d) :
    d.seconds < 2 ^ 64 := by
  rw [ofWords] at h
  split at h
  · cases h
    decide
  · split at h
    · cases h
    · split at h
      · exact Words.seconds_lt_of_terms h
      · cases h

end Duration

end RemoteSettings
