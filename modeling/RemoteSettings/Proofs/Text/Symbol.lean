import Mathlib.Tactic.IntervalCases
import RemoteSettings.Text.Symbol

/-!
# Characters are read as they are encoded

A character is encoded in one byte, or in a first byte that says how many follow and others of six
bits each.  Reading gathers the bits again, and takes no byte with which they would make no
character or could have been encoded in fewer bytes.  So bytes are read as characters exactly if
they encode them; and where an encoding breaks off, its bytes are stray together.

## Main definitions

* `Symbol.utf8` — the bytes of a text.
* `Symbol.tail`, `Symbol.Begun.Expects` — the bytes after the first, and what is expected of them.
* `Symbol.Shows` — what is shown of a text of which some bytes are kept.

## Main results

* `Symbol.ofBytes_utf8` — a text is read as it was encoded.
* `Symbol.chars?_ofBytes_eq_some_iff` — **bytes are read as characters exactly if they encode
  them.**
* `Symbol.shows_lossy` — **the first bytes of a text show its first characters.**
-/

namespace RemoteSettings.Symbol

/-- The bytes of a text in UTF-8. -/
def utf8 (cs : List Char) : List UInt8 := cs.flatMap String.utf8EncodeChar

/-- The last bytes of a code point's encoding, which hold six bits each. -/
def tail : Nat → Nat → List UInt8
  | 0, _ => []
  | n + 1, v => UInt8.ofNat (v / 64 ^ n % 64 + 128) :: tail n v

/-- What has begun of a code point's encoding goes on with so many bytes. -/
structure Begun.Expects (p : Begun) (n v : Nat) : Prop where
  owed : p.owed = n + 1
  bits : p.bits = v / 64 ^ (n + 1)
  low : p.low ≤ v / 64 ^ n % 64 + 128
  high : v / 64 ^ n % 64 + 128 ≤ p.high

/-! What the first byte of two, three or four begins. -/

theorem first_of_two {x : Nat} (hlow : 2 ≤ x) (hhigh : x < 32) :
    first (x + 192) = .inr ⟨1, 1, x, 0x80, 0xBF⟩ := by
  rw [first, if_neg (by omega), if_pos (by simp; omega), Nat.add_sub_cancel]

theorem first_of_three {x : Nat} (h : x < 16) : first (x + 224)
    = .inr ⟨1, 2, x, if x = 0 then 0xA0 else 0x80, if x = 13 then 0x9F else 0xBF⟩ := by
  interval_cases x <;> rfl

theorem first_of_four {x : Nat} (h : x < 5) : first (x + 240)
    = .inr ⟨1, 3, x, if x = 0 then 0x90 else 0x80, if x = 4 then 0x8F else 0xBF⟩ := by
  interval_cases x <;> rfl

/-- What a byte begins, if it begins more than a character. -/
theorem first_eq_inr {b : Nat} {p : Begun} (h : first b = .inr p) :
    (∃ x, 2 ≤ x ∧ x < 32 ∧ b = x + 192 ∧ p = ⟨1, 1, x, 0x80, 0xBF⟩) ∨
    (∃ x < 16, b = x + 224 ∧
      p = ⟨1, 2, x, if x = 0 then 0xA0 else 0x80, if x = 13 then 0x9F else 0xBF⟩) ∨
    ∃ x < 5, b = x + 240 ∧
      p = ⟨1, 3, x, if x = 0 then 0x90 else 0x80, if x = 4 then 0x8F else 0xBF⟩ := by
  have hrange : (194 ≤ b ∧ b < 224) ∨ (224 ≤ b ∧ b < 240) ∨ 240 ≤ b ∧ b < 245 := by
    unfold first at h
    simp only [Bool.and_eq_true, decide_eq_true_eq] at h
    repeat' split at h
    all_goals first
      | omega
      | cases h
  rcases hrange with ⟨hlow, hhigh⟩ | ⟨hlow, hhigh⟩ | ⟨hlow, hhigh⟩
  · obtain ⟨x, rfl⟩ := Nat.exists_eq_add_of_le' (show 192 ≤ b by omega)
    rw [first_of_two (by omega) (by omega)] at h
    exact Or.inl ⟨x, by omega, by omega, rfl, (Sum.inr.inj h).symm⟩
  · obtain ⟨x, rfl⟩ := Nat.exists_eq_add_of_le' hlow
    rw [first_of_three (by omega)] at h
    exact Or.inr (Or.inl ⟨x, by omega, rfl, (Sum.inr.inj h).symm⟩)
  · obtain ⟨x, rfl⟩ := Nat.exists_eq_add_of_le' hlow
    rw [first_of_four (by omega)] at h
    exact Or.inr (Or.inr ⟨x, by omega, rfl, (Sum.inr.inj h).symm⟩)

/-! What a code point is encoded as, by the number of its bytes. -/

section Encodings

variable {c : Char}

theorem utf8EncodeChar_of_one (h : c.toNat < 0x80) :
    String.utf8EncodeChar c = [UInt8.ofNat c.toNat] := by
  rw [String.utf8EncodeChar.eq_1]
  exact if_pos (Nat.le_of_lt_succ h)

theorem utf8EncodeChar_of_two (hlow : 0x80 ≤ c.toNat) (hhigh : c.toNat < 0x800) :
    String.utf8EncodeChar c = UInt8.ofNat (c.toNat / 64 + 192) :: tail 1 c.toNat := by
  rw [String.utf8EncodeChar.eq_1, show c.val.toNat = c.toNat from rfl, if_neg (by omega),
    if_pos (by omega), Nat.mod_eq_of_lt (by omega)]
  simp only [tail, Nat.pow_zero, Nat.div_one]

theorem utf8EncodeChar_of_three (hlow : 0x800 ≤ c.toNat) (hhigh : c.toNat < 0x10000) :
    String.utf8EncodeChar c = UInt8.ofNat (c.toNat / 4096 + 224) :: tail 2 c.toNat := by
  rw [String.utf8EncodeChar.eq_1, show c.val.toNat = c.toNat from rfl, if_neg (by omega),
    if_neg (by omega), if_pos (by omega), Nat.mod_eq_of_lt (show c.toNat / 4096 < 16 by omega)]
  simp only [tail, Nat.pow_zero, Nat.div_one, Nat.pow_one]

theorem utf8EncodeChar_of_four (hlow : 0x10000 ≤ c.toNat) :
    String.utf8EncodeChar c = UInt8.ofNat (c.toNat / 262144 + 240) :: tail 3 c.toNat := by
  have hvalid : c.toNat < 0xD800 ∨ 0xDFFF < c.toNat ∧ c.toNat < 0x110000 := c.valid
  rw [String.utf8EncodeChar.eq_1, show c.val.toNat = c.toNat from rfl, if_neg (by omega),
    if_neg (by omega), if_neg (by omega), Nat.mod_eq_of_lt (show c.toNat / 262144 < 8 by omega)]
  simp only [tail, Nat.pow_zero, Nat.div_one, Nat.pow_one, Nat.reducePow]

end Encodings

/-- A character that is no ASCII character has an encoding of several bytes. -/
theorem exists_begun {c : Char} (h : 0x80 ≤ c.toNat) : ∃ b p n,
    String.utf8EncodeChar c = b :: tail (n + 1) c.toNat ∧ first b.toNat = .inr p ∧ p.seen = 1 ∧
      p.Expects n c.toNat := by
  have hvalid : c.toNat < 0xD800 ∨ 0xDFFF < c.toNat ∧ c.toNat < 0x110000 := c.valid
  have hbyte : ∀ x < 256, (UInt8.ofNat x).toNat = x := fun x hx => UInt8.toNat_ofNat_of_lt' hx
  by_cases htwo : c.toNat < 0x800
  · have hfirst := first_of_two (x := c.toNat / 64) (by omega) (by omega)
    rw [← hbyte (c.toNat / 64 + 192) (by omega)] at hfirst
    refine ⟨_, _, 0, utf8EncodeChar_of_two h htwo, hfirst, rfl, rfl, rfl, ?_, ?_⟩
    · exact Nat.le_add_left _ _
    · show c.toNat / 1 % 64 + 128 ≤ 0xBF
      omega
  by_cases hthree : c.toNat < 0x10000
  · have hfirst := first_of_three (x := c.toNat / 4096) (by omega)
    rw [← hbyte (c.toNat / 4096 + 224) (by omega)] at hfirst
    refine ⟨_, _, 1, utf8EncodeChar_of_three (by omega) hthree, hfirst, rfl, rfl, rfl, ?_, ?_⟩
    · dsimp only
      split <;> omega
    · dsimp only
      split <;> omega
  · have hfirst := first_of_four (x := c.toNat / 262144) (by omega)
    rw [← hbyte (c.toNat / 262144 + 240) (by omega)] at hfirst
    refine ⟨_, _, 2, utf8EncodeChar_of_four (by omega), hfirst, rfl, rfl, rfl, ?_, ?_⟩
    · dsimp only
      split <;> omega
    · dsimp only
      split <;> omega

/-- A byte that is expected goes on with what has begun, or ends it. -/
theorem read_cons {p : Begun} {n v : Nat} (h : p.Expects n v) (rest : List UInt8) :
    read (some p) (UInt8.ofNat (v / 64 ^ n % 64 + 128) :: rest)
      = match extend p (v / 64 ^ n % 64 + 128) with
        | .inl s => s :: read none rest
        | .inr q => read (some q) rest := by
  have hbyte : (UInt8.ofNat (v / 64 ^ n % 64 + 128)).toNat = v / 64 ^ n % 64 + 128 :=
    UInt8.toNat_ofNat_of_lt' (show _ < 256 by omega)
  rw [read, hbyte]
  exact if_pos (Bool.and_eq_true_iff.mpr ⟨decide_eq_true h.low, decide_eq_true h.high⟩)

theorem extend_bits {p : Begun} {n v : Nat} (h : p.Expects n v) :
    p.bits * 64 + (v / 64 ^ n % 64 + 128 - 128) = v / 64 ^ n := by
  rw [h.bits, Nat.pow_succ, ← Nat.div_div_eq_div_mul, Nat.add_sub_cancel]
  omega

theorem extend_zero {p : Begun} {v : Nat} (h : p.Expects 0 v) :
    extend p (v / 64 ^ 0 % 64 + 128) = .inl (.char (Char.ofNat v)) := by
  have hbits := extend_bits h
  rw [Nat.pow_zero, Nat.div_one] at hbits ⊢
  simp only [extend, h.owed, hbits]
  rfl

theorem exists_extend_succ {p : Begun} {n v : Nat} (h : p.Expects (n + 1) v) :
    ∃ q, extend p (v / 64 ^ (n + 1) % 64 + 128) = .inr q ∧ q.seen = p.seen + 1 ∧
      q.Expects n v := by
  refine ⟨⟨p.seen + 1, p.owed - 1, v / 64 ^ (n + 1), 0x80, 0xBF⟩, ?_, rfl, ?_⟩
  · simp only [extend, h.owed, extend_bits h]
    rw [if_neg (by omega)]
  · refine ⟨?_, rfl, Nat.le_add_left _ _, ?_⟩
    · show p.owed - 1 = n + 1
      rw [h.owed]
      omega
    · show v / 64 ^ n % 64 + 128 ≤ 0xBF
      omega

/-- The bytes that are expected make a character. -/
theorem read_tail_append {p : Begun} {n v : Nat} (h : p.Expects n v) (rest : List UInt8) :
    read (some p) (tail (n + 1) v ++ rest) = .char (Char.ofNat v) :: read none rest := by
  induction n generalizing p with
  | zero => rw [tail, tail, List.cons_append, read_cons h, extend_zero h]; rfl
  | succ n ih =>
    obtain ⟨q, hextend, -, hq⟩ := exists_extend_succ h
    rw [tail, List.cons_append, read_cons h, hextend]
    exact ih hq

/-- Where bytes are missing, those that are there are stray. -/
theorem read_take_tail {p : Begun} {n v : Nat} (h : p.Expects n v) {k : Nat} (hk : k ≤ n) :
    read (some p) ((tail (n + 1) v).take k) = [.stray (p.seen + k)] := by
  induction k generalizing p n with
  | zero => rfl
  | succ k ih =>
    obtain ⟨n, rfl⟩ := Nat.exists_eq_add_one_of_ne_zero (show n ≠ 0 by omega)
    obtain ⟨q, hextend, hseen, hq⟩ := exists_extend_succ h
    rw [tail, List.take_succ_cons, read_cons h, hextend]
    dsimp only
    rw [ih hq (by omega), hseen, Nat.add_assoc, Nat.add_comm 1]

/-! ### Characters -/

theorem length_tail (n v : Nat) : (tail n v).length = n := by
  induction n with
  | zero => rfl
  | succ n ih => rw [tail, List.length_cons, ih]

/-- The encoding of a character is read as the character. -/
theorem read_utf8EncodeChar_append (c : Char) (rest : List UInt8) :
    read none (String.utf8EncodeChar c ++ rest) = .char c :: read none rest := by
  by_cases hascii : c.toNat < 0x80
  · have hfirst : first c.toNat = .inl (.char c) := by
      rw [first, if_pos hascii, Char.ofNat_toNat]
    rw [utf8EncodeChar_of_one hascii, List.singleton_append, read]
    rw [UInt8.toNat_ofNat_of_lt' (show _ < 256 by omega), hfirst]
  · obtain ⟨b, p, n, hbytes, hfirst, -, hp⟩ := exists_begun (Nat.not_lt.mp hascii)
    rw [hbytes, List.cons_append, read, hfirst]
    dsimp only
    rw [read_tail_append hp, Char.ofNat_toNat]

/-- The beginning of an encoding that breaks off is one group of stray bytes. -/
theorem read_take_utf8EncodeChar {c : Char} {k : Nat} (hpos : 0 < k) (hlt : k < c.utf8Size) :
    read none ((String.utf8EncodeChar c).take k) = [.stray k] := by
  rw [← String.length_utf8EncodeChar] at hlt
  by_cases hascii : c.toNat < 0x80
  · rw [utf8EncodeChar_of_one hascii, List.length_singleton] at hlt
    omega
  · obtain ⟨b, p, n, hbytes, hfirst, hseen, hp⟩ := exists_begun (Nat.not_lt.mp hascii)
    obtain ⟨k, rfl⟩ := Nat.exists_eq_add_one_of_ne_zero (Nat.ne_of_gt hpos)
    rw [hbytes, List.length_cons, length_tail] at hlt
    rw [hbytes, List.take_succ_cons, read, hfirst]
    dsimp only
    rw [read_take_tail hp (by omega), hseen, Nat.add_comm 1]

/-- **A text is read as it was encoded.** -/
theorem ofBytes_utf8 (cs : List Char) : ofBytes (utf8 cs) = cs.map .char := by
  rw [ofBytes]
  induction cs with
  | nil => rfl
  | cons c cs ih =>
    rw [utf8, List.flatMap_cons, read_utf8EncodeChar_append, ← utf8, ih, List.map_cons]

/-! ### No other bytes are read as characters -/

theorem chars?_map_char (cs : List Char) : chars? (cs.map .char) = some cs := by
  induction cs with
  | nil => rfl
  | cons c cs ih => rw [List.map_cons, chars?, ih, Option.map_some]

/-- A byte that is taken is expected. -/
theorem Begun.Expects.of_byte {p : Begun} {n v : Nat} {b : UInt8} (howed : p.owed = n + 1)
    (hlow : 0x80 ≤ p.low) (hhigh : p.high ≤ 0xBF) (hb : p.low ≤ b.toNat ∧ b.toNat ≤ p.high)
    (hv : v / 64 ^ n = p.bits * 64 + (b.toNat - 0x80)) :
    p.Expects n v ∧ b = UInt8.ofNat (v / 64 ^ n % 64 + 128) := by
  have hbits : v / 64 ^ (n + 1) = p.bits := by
    rw [Nat.pow_succ, ← Nat.div_div_eq_div_mul, hv]
    omega
  have hbyte : v / 64 ^ n % 64 + 128 = b.toNat := by
    rw [hv]
    omega
  exact ⟨⟨howed, hbits.symm, hbyte ▸ hb.1, hbyte ▸ hb.2⟩, by rw [hbyte, UInt8.ofNat_toNat]⟩

/-- What has begun goes on as it should if no byte is stray. -/
theorem exists_expects {n : Nat} {p : Begun} (howed : p.owed = n + 1) (hlow : 0x80 ≤ p.low)
    (hhigh : p.high ≤ 0xBF) {bytes : List UInt8} {cs : List Char}
    (h : chars? (read (some p) bytes) = some cs) :
    ∃ v rest, p.Expects n v ∧ bytes = tail (n + 1) v ++ rest := by
  induction n generalizing p bytes with
  | zero =>
    cases bytes with
    | nil => cases h
    | cons b rest =>
      rw [read] at h
      split at h
      · next hrange =>
        have hb : p.low ≤ b.toNat ∧ b.toNat ≤ p.high := by simpa using hrange
        obtain ⟨hp, hbyte⟩ := Begun.Expects.of_byte (n := 0) (v := p.bits * 64 + (b.toNat - 0x80))
          howed hlow hhigh hb (Nat.div_one _)
        exact ⟨_, rest, hp, by rw [tail, tail, ← hbyte]; rfl⟩
      · cases h
  | succ n ih =>
    cases bytes with
    | nil => cases h
    | cons b rest =>
      rw [read] at h
      split at h
      · next hrange =>
        have hb : p.low ≤ b.toNat ∧ b.toNat ≤ p.high := by simpa using hrange
        have hextend : extend p b.toNat
            = .inr ⟨p.seen + 1, p.owed - 1, p.bits * 64 + (b.toNat - 0x80), 0x80, 0xBF⟩ := by
          rw [extend, if_neg]
          rw [howed]
          omega
        rw [hextend] at h
        obtain ⟨v, rest', hq, rfl⟩ := ih (show p.owed - 1 = n + 1 by omega) (Nat.le_refl _)
          (Nat.le_refl _) h
        obtain ⟨hp, hbyte⟩ := Begun.Expects.of_byte howed hlow hhigh hb hq.bits.symm
        exact ⟨v, rest', hp, by rw [tail.eq_2 v (n + 1), ← hbyte]; rfl⟩
      · cases h

theorem toNat_ofNat {v : Nat} (h : v.isValidChar) : (Char.ofNat v).toNat = v := by
  rw [Char.ofNat, dif_pos h]
  rfl

/-- A byte that begins something is the first byte of the code point that is expected. -/
theorem utf8EncodeChar_of_expects {b : UInt8} {p : Begun} {n v : Nat}
    (hfirst : first b.toNat = .inr p) (hp : p.Expects n v) :
    String.utf8EncodeChar (Char.ofNat v) = b :: tail (n + 1) v := by
  have htwo : 2 ≤ v / 64 → v / 64 < 32 → b.toNat = v / 64 + 192 →
      String.utf8EncodeChar (Char.ofNat v) = b :: tail 1 v := by
    intro hlow hhigh hb
    have hv := toNat_ofNat (v := v) (Or.inl (by omega))
    rw [utf8EncodeChar_of_two (by omega) (by omega), hv, ← hb, UInt8.ofNat_toNat]
  have hthree : 0x800 ≤ v → v < 0xD800 ∨ 0xDFFF < v ∧ v < 0x10000 → b.toNat = v / 4096 + 224 →
      String.utf8EncodeChar (Char.ofNat v) = b :: tail 2 v := by
    intro hlow hhigh hb
    have hv := toNat_ofNat (v := v) (by rw [Nat.isValidChar]; omega)
    rw [utf8EncodeChar_of_three (by omega) (by omega), hv, ← hb, UInt8.ofNat_toNat]
  have hfour : 0x10000 ≤ v → v < 0x110000 → b.toNat = v / 262144 + 240 →
      String.utf8EncodeChar (Char.ofNat v) = b :: tail 3 v := by
    intro hlow hhigh hb
    have hv := toNat_ofNat (v := v) (Or.inr (by omega))
    rw [utf8EncodeChar_of_four (by omega), hv, ← hb, UInt8.ofNat_toNat]
  obtain ⟨howed, hbits, hlow, hhigh⟩ := hp
  rcases first_eq_inr hfirst with ⟨x, hx, hx', hb, rfl⟩ | ⟨x, hx, hb, rfl⟩ | ⟨x, hx, hb, rfl⟩
  · obtain rfl : n = 0 := (Nat.succ.inj howed).symm
    replace hbits : x = v / 64 := hbits
    exact htwo (by omega) (by omega) (by omega)
  · obtain rfl : n = 1 := (Nat.succ.inj howed).symm
    replace hbits : x = v / 4096 := hbits
    replace hlow : (if x = 0 then 0xA0 else 0x80) ≤ v / 64 % 64 + 128 := hlow
    replace hhigh : v / 64 % 64 + 128 ≤ if x = 13 then 0x9F else 0xBF := hhigh
    refine hthree ?_ ?_ (by omega)
    · split at hlow <;> omega
    · split at hhigh <;> omega
  · obtain rfl : n = 2 := (Nat.succ.inj howed).symm
    replace hbits : x = v / 262144 := hbits
    replace hlow : (if x = 0 then 0x90 else 0x80) ≤ v / 4096 % 64 + 128 := hlow
    replace hhigh : v / 4096 % 64 + 128 ≤ if x = 4 then 0x8F else 0xBF := hhigh
    refine hfour ?_ ?_ (by omega)
    · split at hlow <;> omega
    · split at hhigh <;> omega

/-- What begins with a character begins with its encoding. -/
theorem exists_utf8EncodeChar {b : UInt8} {bytes : List UInt8} {cs : List Char}
    (h : chars? (read none (b :: bytes)) = some cs) :
    ∃ c rest, b :: bytes = String.utf8EncodeChar c ++ rest := by
  rw [read] at h
  cases hfirst : first b.toNat with
  | inl s =>
    by_cases hascii : b.toNat < 0x80
    · have hc : (Char.ofNat b.toNat).toNat = b.toNat := toNat_ofNat (Or.inl (by omega))
      refine ⟨Char.ofNat b.toNat, bytes, ?_⟩
      rw [utf8EncodeChar_of_one (by omega), hc, UInt8.ofNat_toNat]
      rfl
    · have hs : s = .stray 1 := by
        unfold first at hfirst
        repeat' split at hfirst
        all_goals cases hfirst
        · contradiction
        · rfl
      rw [hfirst, hs] at h
      cases h
  | inr p =>
    rw [hfirst] at h
    obtain ⟨n, howed, hlow, hhigh⟩ : ∃ n, p.owed = n + 1 ∧ 0x80 ≤ p.low ∧ p.high ≤ 0xBF := by
      rcases first_eq_inr hfirst with ⟨x, -, -, -, rfl⟩ | ⟨x, -, -, rfl⟩ | ⟨x, -, -, rfl⟩
      · exact ⟨0, rfl, Nat.le_refl _, Nat.le_refl _⟩
      · refine ⟨1, rfl, ?_, ?_⟩ <;>
          · dsimp only
            split <;> omega
      · refine ⟨2, rfl, ?_, ?_⟩ <;>
          · dsimp only
            split <;> omega
    obtain ⟨v, rest, hp, rfl⟩ := exists_expects howed hlow hhigh h
    exact ⟨Char.ofNat v, rest, by rw [utf8EncodeChar_of_expects hfirst hp, List.cons_append]⟩

/-- **Bytes are read as characters exactly if they encode them.** -/
theorem chars?_ofBytes_eq_some_iff {bytes : List UInt8} {cs : List Char} :
    chars? (ofBytes bytes) = some cs ↔ bytes = utf8 cs := by
  constructor
  · intro h
    rw [ofBytes] at h
    induction hn : bytes.length using Nat.strongRecOn generalizing bytes cs with
    | ind n ih =>
      cases bytes with
      | nil =>
        cases h
        rfl
      | cons b bytes =>
        obtain ⟨c, rest, hbytes⟩ := exists_utf8EncodeChar h
        rw [hbytes] at hn h ⊢
        rw [read_utf8EncodeChar_append, chars?] at h
        obtain ⟨cs, hcs, rfl⟩ := Option.map_eq_some_iff.mp h
        have hlt : rest.length < n := by
          have hpos := c.utf8Size_pos
          rw [List.length_append, String.length_utf8EncodeChar] at hn
          omega
        rw [utf8, List.flatMap_cons, ih _ hlt hcs rfl, utf8]
  · rintro rfl
    rw [ofBytes_utf8, chars?_map_char]

/-! ### The beginning of a text -/

/-- What is shown of a text if so many bytes of it are kept: as many characters as fit, and a
replacement character if the next one is cut. -/
inductive Shows (limit : Nat) (cs : List Char) : List Char → Prop
  | whole (fits : (utf8 cs).length ≤ limit) : Shows limit cs cs
  | between {front back : List Char} (parts : cs = front ++ back)
    (ends : (utf8 front).length = limit) : Shows limit cs front
  | within {front back : List Char} {c : Char} (parts : cs = front ++ c :: back)
    (begins : (utf8 front).length < limit) (ends : limit < (utf8 (front ++ [c])).length) :
    Shows limit cs (front ++ ['\uFFFD'])

theorem length_utf8_cons (c : Char) (cs : List Char) :
    (utf8 (c :: cs)).length = c.utf8Size + (utf8 cs).length := by
  rw [utf8, List.flatMap_cons, List.length_append, String.length_utf8EncodeChar, utf8]

/-- A character that fits is shown. -/
theorem Shows.cons {limit : Nat} {c : Char} {cs shown : List Char}
    (h : Shows limit cs shown) : Shows (c.utf8Size + limit) (c :: cs) (c :: shown) := by
  cases h with
  | whole fits =>
    refine .whole ?_
    rw [length_utf8_cons]
    omega
  | between parts ends =>
    refine .between (by rw [parts]; rfl) ?_
    rw [length_utf8_cons, ends]
  | @within front back d parts begins ends =>
    refine .within (show c :: cs = (c :: front) ++ d :: back by rw [parts]; rfl) ?_ ?_
    · rw [length_utf8_cons]
      omega
    · rw [List.cons_append, length_utf8_cons]
      omega

/-- **The first bytes of a text show its first characters**, the last of them cut or not. -/
theorem shows_lossy (limit : Nat) (cs : List Char) :
    Shows limit cs (lossy (ofBytes ((utf8 cs).take limit))) := by
  induction cs generalizing limit with
  | nil =>
    rw [utf8, List.flatMap_nil, List.take_nil]
    exact .whole (Nat.zero_le _)
  | cons c cs ih =>
    have hlength := String.length_utf8EncodeChar c
    by_cases hfits : c.utf8Size ≤ limit
    · obtain ⟨limit, rfl⟩ := Nat.exists_eq_add_of_le hfits
      have htake : (utf8 (c :: cs)).take (c.utf8Size + limit)
          = String.utf8EncodeChar c ++ (utf8 cs).take limit := by
        rw [utf8, List.flatMap_cons, ← hlength, List.take_length_add_append, utf8]
      rw [htake, ofBytes, read_utf8EncodeChar_append]
      exact (ih limit).cons
    · have htake : (utf8 (c :: cs)).take limit = (String.utf8EncodeChar c).take limit := by
        rw [utf8, List.flatMap_cons, List.take_append_of_le_length (by omega)]
      rw [htake]
      cases limit with
      | zero => exact .between (List.nil_append (c :: cs)).symm rfl
      | succ limit =>
        rw [ofBytes, read_take_utf8EncodeChar (Nat.succ_pos limit) (by omega)]
        refine .within (List.nil_append (c :: cs)).symm (Nat.succ_pos limit) ?_
        rw [List.nil_append, length_utf8_cons]
        omega

end RemoteSettings.Symbol
