import Mathlib.Data.Fintype.Basic
import RemoteSettings.Text.Percent

/-!
# What percent-encoding writes

An encoded text is a word over a small alphabet: ASCII letters, digits and four marks stand for
themselves, and all else is a percent sign with two digits in base sixteen.  None of the characters
that structure a path is among them, and the bytes that were encoded can be read back, so that no
two texts are encoded alike.

## Main definitions

* `Percent.IsPlain`, `Percent.IsHexDigit` — the characters that are written.
* `Percent.Encoded` — the words that are written.
* `Percent.text?` — the text that a path segment stands for.

## Main results

* `Percent.encoded_encode` — **every text is encoded as such a word**.
* `Percent.Encoded.notMem` — the words do not hold the characters that structure a path.
* `Percent.text?_encode` — **the text is read back**.
-/

namespace RemoteSettings.Percent

/-- The characters that stand for themselves. -/
def IsPlain (c : Char) : Prop := c.isAlphanum ∨ c ∈ ['-', '_', '.', '~']

/-- The digits in base sixteen that are written. -/
def IsHexDigit (c : Char) : Prop := c.isDigit ∨ c ∈ ['A', 'B', 'C', 'D', 'E', 'F']

instance : DecidablePred IsPlain := fun _ => instDecidableOr

instance : DecidablePred IsHexDigit := fun _ => instDecidableOr

/-- A word of plain characters and of escapes. -/
inductive Encoded : List Char → Prop
  | nil : Encoded []
  | plain {c : Char} {rest : List Char} (isPlain : IsPlain c) (encoded : Encoded rest) :
    Encoded (c :: rest)
  | escape {a b : Char} {rest : List Char} (high : IsHexDigit a) (low : IsHexDigit b)
    (encoded : Encoded rest) : Encoded ('%' :: a :: b :: rest)

/-- The text that a path segment stands for, if it stands for one. -/
def text? (segment : String) : Option String :=
  (decode segment.toList).bind fun bytes => String.fromUTF8? bytes.toByteArray

/-! ### Bytes -/

theorem isHexDigit_hexDigit : ∀ n < 16, IsHexDigit (hexDigit n) := by decide

theorem value?_hexDigit : ∀ n < 16, Digits.value? 16 (hexDigit n) = some n := by decide

theorem isPlain_of_isUnreserved :
    ∀ n < 256, isUnreserved (UInt8.ofNat n) →
      IsPlain (Char.ofNat n) ∧ String.utf8EncodeChar (Char.ofNat n) = [UInt8.ofNat n] := by
  decide +kernel

theorem IsPlain.ne_percent {c : Char} (h : IsPlain c) : c ≠ '%' := by
  rintro rfl
  revert h
  decide

/-- An encoded byte begins a word. -/
theorem Encoded.encodeByte_append (b : UInt8) {rest : List Char} (h : Encoded rest) :
    Encoded (encodeByte b ++ rest) := by
  have hb : b.toNat < 256 := b.toNat_lt
  unfold encodeByte
  split
  · next hplain =>
    have := isPlain_of_isUnreserved b.toNat hb (by simpa using hplain)
    exact .plain this.1 h
  · exact .escape (isHexDigit_hexDigit _ (by omega)) (isHexDigit_hexDigit _ (by omega)) h

/-- An encoded byte is read back. -/
theorem decode_encodeByte_append (b : UInt8) (rest : List Char) :
    decode (encodeByte b ++ rest) = (decode rest).map (b :: ·) := by
  have hb : b.toNat < 256 := b.toNat_lt
  unfold encodeByte
  split
  · next hplain =>
    obtain ⟨hc, hbytes⟩ := isPlain_of_isUnreserved b.toNat hb (by simpa using hplain)
    have hne := hc.ne_percent
    rw [UInt8.ofNat_toNat] at hbytes
    rw [List.singleton_append, decode, if_neg hne, hbytes]
    · rfl
    · intro x y tail hc
      exact absurd hc hne
  · have hhigh := value?_hexDigit (b.toNat / 16) (by omega)
    have hlow := value?_hexDigit (b.toNat % 16) (by omega)
    have hsum : 16 * (b.toNat / 16) + b.toNat % 16 = b.toNat := by omega
    show decode ('%' :: _ :: _ :: rest) = _
    simp only [decode, hhigh, hlow, Option.bind_eq_bind, Option.bind_some, hsum,
      UInt8.ofNat_toNat]
    cases decode rest <;> rfl

/-! ### Texts -/

theorem encoded_flatMap (bytes : List UInt8) : Encoded (bytes.flatMap encodeByte) := by
  induction bytes with
  | nil => exact .nil
  | cons b rest ih => exact ih.encodeByte_append b

theorem decode_flatMap (bytes : List UInt8) : decode (bytes.flatMap encodeByte) = some bytes := by
  induction bytes with
  | nil => rfl
  | cons b rest ih => rw [List.flatMap_cons, decode_encodeByte_append, ih, Option.map_some]

/-- A text is encoded byte by byte. -/
theorem toList_encode (s : String) :
    (encode s).toList = (s.toList.flatMap String.utf8EncodeChar).flatMap encodeByte := by
  rw [encode, String.toList_ofList, List.flatMap_assoc]

/-- **Every text is encoded by plain characters and escapes.** -/
theorem encoded_encode (s : String) : Encoded (encode s).toList := by
  rw [toList_encode]
  exact encoded_flatMap _

/-- **The text is read back.** -/
theorem text?_encode (s : String) : text? (encode s) = some s := by
  have hbytes : (s.toList.flatMap String.utf8EncodeChar).toByteArray = s.toByteArray := by
    rw [← String.utf8Encode_toList, List.utf8Encode]
  rw [text?, toList_encode, decode_flatMap, Option.bind_some, hbytes, String.fromUTF8?,
    dif_pos s.isValidUTF8]
  rfl

theorem encode_injective : Function.Injective encode := fun s t h =>
  Option.some.inj ((text?_encode s).symm.trans ((congrArg text? h).trans (text?_encode t)))

/-- The words hold plain characters, digits and percent signs only. -/
theorem Encoded.notMem {cs : List Char} (h : Encoded cs) {c : Char} (hplain : ¬ IsPlain c)
    (hdigit : ¬ IsHexDigit c) (hpercent : c ≠ '%') : c ∉ cs := by
  induction h with
  | nil => exact List.not_mem_nil
  | plain hx _ ih =>
    rintro (_ | ⟨_, hmem⟩)
    · exact hplain hx
    · exact ih hmem
  | escape ha hb _ ih =>
    rintro (_ | ⟨_, _ | ⟨_, _ | ⟨_, hmem⟩⟩⟩)
    · exact hpercent rfl
    · exact hdigit ha
    · exact hdigit hb
    · exact ih hmem

end RemoteSettings.Percent
