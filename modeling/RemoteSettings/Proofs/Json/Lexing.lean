import RemoteSettings.Json.Skim
import RemoteSettings.Proofs.Json.Grammar
import RemoteSettings.Proofs.Reading

/-!
# Blanks, numbers and strings are read by the grammar

What can be passed over is what the grammar spells.  What is read is less: a number must not be too
large, and a string must make characters.  A number ends only where it cannot go on, and so what
follows it matters.

## Main definitions

* `Grammar.Stops` — a number that ends here cannot go on.
* `Grammar.literal?` — the parts of the number that a text begins with.
* `Grammar.contentChars` — the characters of the string that a text begins with.

## Main results

* `Grammar.Magnitude.literal?_eq`, `Grammar.magnitude_of_literal?` — numbers are read part by part
  as they are spelled.
* `Grammar.Content.skim_eq`, `Grammar.content_of_skim` — strings are passed over as they are
  spelled.
* `Grammar.Content.toOption_string` — **a string is read as the characters that its pieces make.**
-/

namespace RemoteSettings

theorem toOption_bind {ε α β : Type} (x : Except ε α) (f : α → Except ε β) :
    (x >>= f).toOption = x.toOption.bind fun a => (f a).toOption := by
  cases x <;> rfl

theorem toOption_eq_some_iff {ε α : Type} {x : Except ε α} {a : α} :
    x.toOption = some a ↔ x = .ok a := by
  cases x with
  | error e => exact ⟨(nomatch ·), (nomatch ·)⟩
  | ok b =>
    constructor
    · exact fun h => congrArg Except.ok (Option.some.inj h)
    · exact fun h => congrArg some (Except.ok.inj h)

namespace Grammar

/-! ### Blanks -/

theorem Blanks.refl (s : List Symbol) : Blanks s s := ⟨[], List.forall_mem_nil _, rfl⟩

theorem Blanks.trans {s t rest : List Symbol} (h : Blanks s t) (hrest : Blanks t rest) :
    Blanks s rest := by
  obtain ⟨front, hfront, rfl⟩ := h
  obtain ⟨back, hback, rfl⟩ := hrest
  refine ⟨front ++ back, fun x hx => ?_, (List.append_assoc _ _ _).symm⟩
  exact (List.mem_append.mp hx).elim (hfront x) (hback x)

theorem blanks_skipBlanks (s : List Symbol) : Blanks s (Reader.skipBlanks s) :=
  ⟨s.takeWhile Reader.isBlank, fun _ hx => List.all_eq_true.mp List.all_takeWhile _ hx,
    List.takeWhile_append_dropWhile.symm⟩

theorem Blanks.skipBlanks_eq {s rest : List Symbol} (h : Blanks s rest) :
    Reader.skipBlanks s = Reader.skipBlanks rest := by
  obtain ⟨blanks, hblank, rfl⟩ := h
  exact List.dropWhile_append_of_pos hblank

/-- What is no blank is not skipped. -/
theorem Blanks.skipBlanks_cons {s rest : List Symbol} {x : Symbol} (h : Blanks s (x :: rest))
    (hx : Reader.isBlank x = false) : Reader.skipBlanks s = x :: rest := by
  rw [h.skipBlanks_eq]
  exact List.dropWhile_cons_of_neg (Bool.eq_false_iff.mp hx)

theorem blanks_of_skipBlanks_eq {s rest : List Symbol} (h : Reader.skipBlanks s = rest) :
    Blanks s rest := h ▸ blanks_skipBlanks s

theorem blanks_nil_iff {s : List Symbol} : Blanks s [] ↔ Reader.skipBlanks s = [] :=
  ⟨fun h => h.skipBlanks_eq, blanks_of_skipBlanks_eq⟩

theorem Blanks.length_le {s rest : List Symbol} (h : Blanks s rest) : rest.length ≤ s.length := by
  obtain ⟨blanks, -, rfl⟩ := h
  rw [List.length_append]
  exact Nat.le_add_left _ _

/-! ### Numbers -/

/-- A text does not begin with anything by which a number could go on. -/
def Stops (s : List Symbol) : Prop :=
  ∀ x, s.head? = some x →
    Reader.digit? x = none ∧ x ≠ .char '.' ∧ Reader.isExponentMark x = false

theorem stops_nil : Stops [] := fun _ h => nomatch h

theorem stops_cons {x : Symbol} {s : List Symbol} (hdigit : Reader.digit? x = none)
    (hpoint : x ≠ .char '.') (hmark : Reader.isExponentMark x = false) : Stops (x :: s) := by
  intro y hy
  obtain rfl : x = y := Option.some.inj hy
  exact ⟨hdigit, hpoint, hmark⟩

theorem stops_of_isBlank {x : Symbol} {s : List Symbol} (h : Reader.isBlank x = true) :
    Stops (x :: s) := by
  cases x with
  | stray n => cases h
  | char c =>
    have hcases : ((c = ' ' ∨ c = '\n') ∨ c = '\t') ∨ c = '\r' := by
      simpa [Reader.isBlank] using h
    rcases hcases with ((rfl | rfl) | rfl) | rfl <;>
      exact stops_cons (by decide) (by decide) (by decide)

/-- After blanks no number goes on. -/
theorem Blanks.stops {s rest : List Symbol} (h : Blanks s rest) (hrest : Stops rest) : Stops s := by
  obtain ⟨blanks, hblank, rfl⟩ := h
  cases blanks with
  | nil => exact hrest
  | cons x blanks => exact stops_of_isBlank (hblank x List.mem_cons_self)

/-- The digits that a text begins with, if none follows them. -/
theorem Run.digits_eq {ds : List Nat} {s rest : List Symbol} (h : Run ds s rest)
    (hrest : ∀ x, rest.head? = some x → Reader.digit? x = none) : Reader.digits s = (ds, rest) := by
  induction h with
  | nil s =>
    cases s with
    | nil => rfl
    | cons x s => rw [Reader.digits, hrest x rfl]
  | cons hdigit _ ih => rw [Reader.digits, hdigit, ih hrest]

theorem run_of_digits {ds : List Nat} {s rest : List Symbol} (h : Reader.digits s = (ds, rest)) :
    Run ds s rest := by
  induction s generalizing ds with
  | nil =>
    cases h
    exact .nil []
  | cons x s ih =>
    rw [Reader.digits] at h
    split at h
    · next d hdigit =>
      cases h
      exact .cons hdigit (ih rfl)
    · cases h
      exact .nil _

theorem Run.length_eq {ds : List Nat} {s rest : List Symbol} (h : Run ds s rest) :
    s.length = ds.length + rest.length := by
  induction h with
  | nil s => exact (Nat.zero_add _).symm
  | cons _ _ ih =>
    rw [List.length_cons, List.length_cons, ih]
    omega

theorem integerPart_eq_ok {s rest : List Symbol} {ds : List Nat}
    (h : Reader.digits s = (ds, rest)) (hne : ds ≠ []) (hlead : ds.head? = some 0 → ds = [0]) :
    Reader.integerPart s = .ok (ds, rest) := by
  rw [Reader.integerPart, h]
  match ds, hne, hlead with
  | [d], _, _ => cases d <;> rfl
  | 0 :: _ :: _, _, hlead => cases hlead rfl
  | (_ + 1) :: _ :: _, _, _ => rfl

theorem run_of_integerPart {s rest : List Symbol} {ds : List Nat}
    (h : Reader.integerPart s = .ok (ds, rest)) :
    Run ds s rest ∧ ds ≠ [] ∧ (ds.head? = some 0 → ds = [0]) := by
  unfold Reader.integerPart at h
  split at h
  · cases h
  · cases h
  · cases h
  · next hempty hmissing hzero hdigits =>
    cases h
    refine ⟨run_of_digits hdigits, ?_, ?_⟩
    · rintro rfl
      exact hmissing rfl
    · intro hlead
      match ds, hlead with
      | [d], hlead => rw [Option.some.inj hlead]
      | d :: e :: es, hlead =>
        obtain rfl : d = 0 := Option.some.inj hlead
        exact absurd rfl (hzero e es)

theorem Fraction.fractionPart_eq {ds : List Nat} {s rest : List Symbol} (h : Fraction ds s rest)
    (hrest : ∀ x, rest.head? = some x → Reader.digit? x = none ∧ x ≠ .char '.') :
    Reader.fractionPart s = .ok (ds, rest) := by
  cases h with
  | absent s =>
    rw [Reader.fractionPart]
    rintro rest' rfl
    exact (hrest _ rfl).2 rfl
  | present hne hrun =>
    rw [Reader.fractionPart, hrun.digits_eq fun x hx => (hrest x hx).1]
    cases ds with
    | nil => exact absurd rfl hne
    | cons d ds => rfl

theorem fraction_of_fractionPart {ds : List Nat} {s rest : List Symbol}
    (h : Reader.fractionPart s = .ok (ds, rest)) : Fraction ds s rest := by
  unfold Reader.fractionPart at h
  split at h
  · split at h
    · cases h
    · cases h
    · next hmissing hdigits =>
      cases h
      refine .present ?_ (run_of_digits hdigits)
      rintro rfl
      exact hmissing rfl
  · cases h
    exact .absent _

theorem isExponentMark_iff {x : Symbol} :
    Reader.isExponentMark x = true ↔ x = .char 'e' ∨ x = .char 'E' := by
  cases x with
  | stray n => simp [Reader.isExponentMark]
  | char c => simp [Reader.isExponentMark]

theorem Exponent.exponentPart_eq {e : Option (Bool × List Nat)} {s rest : List Symbol}
    (h : Exponent e s rest) (hrest : Stops rest) : Reader.exponentPart s = .ok (e, rest) := by
  cases h with
  | absent s =>
    cases s with
    | nil => rfl
    | cons x s =>
      rw [Reader.exponentPart, if_neg]
      exact Bool.eq_false_iff.mp (hrest x rfl).2.2
  | @present x negative ds s t rest hmark hsign hne hrun =>
    have hdigits := hrun.digits_eq fun x hx => (hrest x hx).1
    obtain ⟨d, ds, rfl⟩ := List.exists_cons_of_ne_nil hne
    have hexponentSign : Reader.exponentSign s = (negative, t) := by
      cases hsign with
      | plus t => rfl
      | minus t => rfl
      | absent t =>
        -- A digit is no sign.
        cases hrun with
        | @cons x d ds s rest hdigit more =>
          rw [Reader.exponentSign]
          · rintro s ⟨⟩
            cases hdigit
          · rintro s ⟨⟩
            cases hdigit
    rw [Reader.exponentPart, if_pos hmark, hexponentSign]
    dsimp only
    rw [hdigits]

theorem exponent_of_exponentPart {e : Option (Bool × List Nat)} {s rest : List Symbol}
    (h : Reader.exponentPart s = .ok (e, rest)) : Exponent e s rest := by
  unfold Reader.exponentPart at h
  split at h
  · cases h
    exact .absent []
  · next x s =>
    split at h
    · next hmark =>
      dsimp only at h
      split at h
      · cases h
      · cases h
      · next ds _ hmissing hdigits =>
        cases h
        refine .present hmark ?_ ?_ (run_of_digits hdigits)
        · unfold Reader.exponentSign
          split
          · exact .plus _
          · exact .minus _
          · exact .absent _
        · rintro rfl
          exact hmissing rfl
    · cases h
      exact .absent _

/-- The parts of a number that a text begins with but for the sign, which is given. -/
def literal? (negative : Bool) (s : List Symbol) : Option (Literal × List Symbol) := do
  let (integer, rest) ← (Reader.integerPart s).toOption
  let (fraction, rest) ← (Reader.fractionPart rest).toOption
  let (exponent, rest) ← (Reader.exponentPart rest).toOption
  some (⟨negative, integer, fraction, exponent⟩, rest)

theorem skim_number_eq (negative : Bool) (s : List Symbol) :
    Skim.number s = (literal? negative s).map (·.2) := by
  rw [Skim.number, literal?]
  cases (Reader.integerPart s).toOption with
  | none => rfl
  | some p =>
    cases hfraction : (Reader.fractionPart p.2).toOption with
    | none => simp [hfraction]
    | some q => cases hexponent : (Reader.exponentPart q.2).toOption <;> simp [hfraction, hexponent]

/-- A number is read if it is not too large. -/
theorem toOption_number (negative : Bool) (s : List Symbol) :
    (Reader.number negative s).toOption =
      (literal? negative s).bind fun p => p.1.toNumber?.map (·, p.2) := by
  simp only [Reader.number, literal?, toOption_bind, Option.bind_eq_bind, Option.bind_assoc,
    Option.bind_some]
  refine congrArg (Option.bind _) (funext fun p => congrArg (Option.bind _) (funext fun q =>
    congrArg (Option.bind _) (funext fun r => ?_)))
  cases Literal.toNumber? ⟨negative, p.1, q.1, r.1⟩ <;> rfl

/-- What an exponent or its absence begins with is neither a digit nor a point. -/
theorem Exponent.head {e : Option (Bool × List Nat)} {s rest : List Symbol}
    (h : Exponent e s rest) (hrest : Stops rest) :
    ∀ x, s.head? = some x → Reader.digit? x = none ∧ x ≠ .char '.' := by
  intro x hx
  cases h with
  | absent s => exact ⟨(hrest x hx).1, (hrest x hx).2.1⟩
  | present hmark _ _ _ =>
    cases hx
    rcases isExponentMark_iff.mp hmark with rfl | rfl <;> decide

theorem Fraction.head {ds : List Nat} {s rest : List Symbol} (h : Fraction ds s rest)
    (hrest : ∀ x, rest.head? = some x → Reader.digit? x = none) :
    ∀ x, s.head? = some x → Reader.digit? x = none := by
  intro x hx
  cases h with
  | absent s => exact hrest x hx
  | present _ _ =>
    cases hx
    decide

/-- A number is read whole if it cannot go on. -/
theorem Magnitude.literal?_eq {l : Literal} {s rest : List Symbol} (h : Magnitude l s rest)
    (hrest : Stops rest) : literal? l.negative s = some (l, rest) := by
  obtain ⟨t, u, hinteger, hfraction, hexponent⟩ := h.exists_parts
  have hu := hexponent.head hrest
  have ht := hfraction.head fun x hx => (hu x hx).1
  have hinteger := integerPart_eq_ok (hinteger.digits_eq ht) h.nonempty h.lead
  simp only [literal?, hinteger, hfraction.fractionPart_eq hu, hexponent.exponentPart_eq hrest,
    Except.toOption, Option.bind_eq_bind, Option.bind_some]

theorem magnitude_of_literal? {negative : Bool} {l : Literal} {s rest : List Symbol}
    (h : literal? negative s = some (l, rest)) : l.negative = negative ∧ Magnitude l s rest := by
  obtain ⟨⟨integer, t⟩, hinteger, h⟩ := Option.bind_eq_some_iff.mp h
  obtain ⟨⟨fraction, u⟩, hfraction, h⟩ := Option.bind_eq_some_iff.mp h
  obtain ⟨⟨exponent, v⟩, hexponent, h⟩ := Option.bind_eq_some_iff.mp h
  cases h
  obtain ⟨hrun, hne, hlead⟩ := run_of_integerPart (toOption_eq_some_iff.mp hinteger)
  refine ⟨rfl, ⟨t, u, hrun, fraction_of_fractionPart (toOption_eq_some_iff.mp hfraction),
    exponent_of_exponentPart (toOption_eq_some_iff.mp hexponent)⟩, hne, hlead⟩

/-! ### Strings -/

section Skim

variable (s : List Symbol)

theorem skim_close : Skim.content (.char '"' :: s) = some s := by
  rw [Skim.content.eq_def]
  exact if_pos rfl

theorem skim_char {c : Char} (hquote : c ≠ '"') (hbackslash : c ≠ '\\')
    (hcontrol : 0x20 ≤ c.toNat) : Skim.content (.char c :: s) = Skim.content s := by
  rw [Skim.content.eq_def]
  dsimp only
  rw [if_neg (by simpa using hquote), if_neg (by simpa using hbackslash),
    if_neg (Nat.not_lt.mpr hcontrol)]

theorem plainEscape?_ne {c d : Char} (h : Reader.plainEscape? c = some d) : c ≠ 'u' := by
  rintro rfl
  cases h

theorem skim_escape {c d : Char} (h : Reader.plainEscape? c = some d) :
    Skim.content (.char '\\' :: .char c :: s) = Skim.content s := by
  rw [Skim.content.eq_4 _ _ _ fun _ _ _ _ _ _ => plainEscape?_ne h, if_neg (by decide),
    if_pos (by decide), if_pos (Option.isSome_of_eq_some h)]

theorem skim_unit {a b c d : Char} {n : Nat} (h : Reader.fourHex? a b c d = some n) :
    Skim.content (.char '\\' :: .char 'u' :: .char a :: .char b :: .char c :: .char d :: s) =
      Skim.content s := by
  rw [Skim.content.eq_3, if_neg (by decide), if_pos (by decide),
    if_pos (Option.isSome_of_eq_some h)]

end Skim

/-- The content of a string is passed over. -/
theorem Content.skim_eq {ps : List Piece} {s rest : List Symbol} (h : Content ps s rest) :
    Skim.content s = some rest := by
  induction h with
  | close rest => exact skim_close rest
  | char hquote hbackslash hcontrol _ ih => rw [skim_char _ hquote hbackslash hcontrol, ih]
  | stray n _ ih => rw [Skim.content, ih]
  | escape hletter _ ih => rw [skim_escape _ hletter, ih]
  | unit hdigits _ ih => rw [skim_unit _ hdigits, ih]

/-- What is passed over is the content of a string. -/
theorem content_of_skim {s rest : List Symbol} (h : Skim.content s = some rest) :
    ∃ ps, Content ps s rest := by
  fun_induction Skim.content s with
  | case1 => cases h
  | case2 n s ih =>
    obtain ⟨ps, hps⟩ := ih h
    exact ⟨_, .stray n hps⟩
  | case3 c s hquote =>
    cases h
    rw [eq_of_beq hquote]
    exact ⟨_, .close _⟩
  | case4 x _ hbackslash a b c d s hdigits ih =>
    obtain ⟨ps, hps⟩ := ih h
    obtain ⟨n, hn⟩ := Option.isSome_iff_exists.mp hdigits
    rw [eq_of_beq hbackslash]
    exact ⟨_, .unit hn hps⟩
  | case5 => cases h
  | case6 x _ hbackslash c s _ hletter ih =>
    obtain ⟨ps, hps⟩ := ih h
    obtain ⟨d, hd⟩ := Option.isSome_iff_exists.mp hletter
    rw [eq_of_beq hbackslash]
    exact ⟨_, .escape hd hps⟩
  | case7 => cases h
  | case8 => cases h
  | case9 => cases h
  | case10 c s hquote hbackslash hcontrol ih =>
    obtain ⟨ps, hps⟩ := ih h
    exact ⟨_, .char (by simpa using hquote) (by simpa using hbackslash)
      (Nat.not_lt.mp hcontrol) hps⟩

theorem Content.length_lt {ps : List Piece} {s rest : List Symbol} (h : Content ps s rest) :
    rest.length < s.length := by
  induction h with
  | close rest => exact Nat.lt_succ_self _
  | _ => simp only [List.length_cons]; omega

/-! What follows a backslash is one piece of a string, or both halves of a surrogate pair. -/

theorem exists_codeUnit {s rest : List Symbol} {n : Nat}
    (h : Reader.codeUnit s = .ok (n, rest)) :
    ∃ a b c d, Reader.fourHex? a b c d = some n ∧
      s = .char a :: .char b :: .char c :: .char d :: rest := by
  have hbad : (if Symbol.sizeAll s < 4 then Reader.failAt .endInString [] else
      Reader.failAfter 4 .badEscape s) ≠ Except.ok (n, rest) := by
    split <;> exact fun h => nomatch h
  unfold Reader.codeUnit at h
  dsimp only at h
  split at h
  · split at h
    · next hdigits =>
      cases h
      exact ⟨_, _, _, _, hdigits, rfl⟩
    · exact absurd h hbad
  · exact absurd h hbad

theorem codeUnit_eq {a b c d : Char} {n : Nat} (h : Reader.fourHex? a b c d = some n)
    (s : List Symbol) :
    Reader.codeUnit (.char a :: .char b :: .char c :: .char d :: s) = .ok (n, s) := by
  rw [Reader.codeUnit, h]

theorem skim_of_lowSurrogate {high : Nat} {s rest : List Symbol} {c : Char}
    (h : Reader.lowSurrogate high s = .ok (c, rest)) : Skim.content s = Skim.content rest := by
  unfold Reader.lowSurrogate at h
  split at h
  · cases h
  · cases h
  · obtain ⟨⟨low, t⟩, hunit, hjoin⟩ := bind_eq_ok h
    obtain ⟨a, b, c, d, hdigits, rfl⟩ := exists_codeUnit hunit
    dsimp only at hjoin
    split at hjoin
    · cases hjoin
    · obtain ⟨-, rfl⟩ := Prod.mk.inj (Except.ok.inj hjoin)
      exact skim_unit _ hdigits
  · cases h
  · cases h

theorem skim_of_escape {s rest : List Symbol} {c : Char} (h : Reader.escape s = .ok (c, rest)) :
    Skim.content (.char '\\' :: s) = Skim.content rest := by
  unfold Reader.escape at h
  split at h
  · cases h
  · obtain ⟨⟨n, t⟩, hunit, hchar⟩ := bind_eq_ok h
    obtain ⟨a, b, c, d, hdigits, rfl⟩ := exists_codeUnit hunit
    rw [skim_unit _ hdigits]
    dsimp only at hchar
    split at hchar
    · cases hchar
    · split at hchar
      · exact skim_of_lowSurrogate hchar
      · cases hchar
        rfl
  · split at h
    · next hletter =>
      cases h
      exact skim_escape _ hletter
    · cases h
  · cases h

section Content

variable (n : Nat) (s : List Symbol)

theorem content_escape : Reader.content (n + 1) (.char '\\' :: s) = (do
    let (c, rest) ← Reader.escape s
    let (more, rest) ← Reader.content n rest
    .ok (.char c :: more, rest)) := rfl

theorem content_stray (k : Nat) : Reader.content (n + 1) (.stray k :: s) = (do
    let (more, rest) ← Reader.content n s
    .ok (.stray k :: more, rest)) := rfl

theorem content_char {c : Char} (hquote : c ≠ '"') (hbackslash : c ≠ '\\') :
    Reader.content (n + 1) (.char c :: s) =
      if c.toNat < 0x20 then Reader.failPeek .controlCharacter (.char c :: s)
      else (do
        let (more, rest) ← Reader.content n s
        .ok (.char c :: more, rest)) := by
  rw [Reader.content]
  · exact fun h => hquote (Symbol.char.inj h)
  · exact fun h => hbackslash (Symbol.char.inj h)

end Content

/-- The content of a string that is read can be passed over. -/
theorem skim_of_content {n : Nat} {s rest : List Symbol} {symbols : List Symbol}
    (h : Reader.content n s = .ok (symbols, rest)) : Skim.content s = some rest := by
  induction n generalizing s symbols with
  | zero => cases h
  | succ n ih =>
    match s with
    | [] => cases h
    | .stray k :: s =>
      obtain ⟨⟨more, t⟩, hmore, h⟩ := bind_eq_ok (content_stray n s k ▸ h)
      cases h
      rw [Skim.content, ih hmore]
    | .char c :: s =>
      by_cases hquote : c = '"'
      · subst hquote
        cases h
        exact skim_close _
      · by_cases hbackslash : c = '\\'
        · subst hbackslash
          obtain ⟨⟨d, t⟩, hescape, h⟩ := bind_eq_ok h
          obtain ⟨⟨more, u⟩, hmore, h⟩ := bind_eq_ok h
          cases h
          rw [skim_of_escape hescape, ih hmore]
        · rw [content_char n s hquote hbackslash] at h
          split at h
          · cases h
          · next hcontrol =>
            obtain ⟨⟨more, t⟩, hmore, h⟩ := bind_eq_ok h
            cases h
            rw [skim_char s hquote hbackslash (Nat.not_lt.mp hcontrol), ih hmore]

/-- A string that is read can be passed over. -/
theorem skim_of_string {s rest : List Symbol} {text : String}
    (h : Reader.string s = .ok (text, rest)) : Skim.content s = some rest := by
  obtain ⟨⟨symbols, t⟩, hcontent, h⟩ := bind_eq_ok h
  dsimp only at h
  split at h
  · cases h
    exact skim_of_content hcontent
  · cases h

/-! A string that is spelled is read as the characters of its pieces. -/

/-- The content of a string, if it has no stray bytes. -/
def contentChars (n : Nat) (s : List Symbol) : Option (List Char × List Symbol) :=
  (Reader.content n s).toOption.bind fun p => (Symbol.chars? p.1).map (·, p.2)

theorem toOption_string (s : List Symbol) : (Reader.string s).toOption =
    (contentChars s.length s).map fun p => (String.ofList p.1, p.2) := by
  rw [Reader.string, toOption_bind, contentChars]
  cases (Reader.content s.length s).toOption with
  | none => rfl
  | some p =>
    dsimp only [Option.bind_some]
    cases Symbol.chars? p.1 <;> rfl

section ContentChars

variable (n : Nat) (s : List Symbol)

theorem contentChars_char {c : Char} (hquote : c ≠ '"') (hbackslash : c ≠ '\\')
    (hcontrol : 0x20 ≤ c.toNat) : contentChars (n + 1) (.char c :: s) =
      (contentChars n s).map fun p => (c :: p.1, p.2) := by
  rw [contentChars, content_char n s hquote hbackslash, if_neg (Nat.not_lt.mpr hcontrol),
    toOption_bind, contentChars]
  cases (Reader.content n s).toOption with
  | none => rfl
  | some p => cases h : Symbol.chars? p.1 <;> simp [Symbol.chars?, Except.toOption, h]

theorem contentChars_stray (k : Nat) : contentChars (n + 1) (.stray k :: s) = none := by
  rw [contentChars, content_stray, toOption_bind]
  cases (Reader.content n s).toOption <;> rfl

theorem contentChars_escape : contentChars (n + 1) (.char '\\' :: s) =
    (Reader.escape s).toOption.bind fun e =>
      (contentChars n e.2).map fun p => (e.1 :: p.1, p.2) := by
  rw [contentChars, content_escape, toOption_bind]
  cases (Reader.escape s).toOption with
  | none => rfl
  | some e =>
    rw [Option.bind_some, Option.bind_some, contentChars, toOption_bind]
    cases (Reader.content n e.2).toOption with
    | none => rfl
    | some p => cases h : Symbol.chars? p.1 <;> simp [Symbol.chars?, Except.toOption, h]

end ContentChars

theorem escape_letter {c d : Char} (h : Reader.plainEscape? c = some d) (s : List Symbol) :
    Reader.escape (.char c :: s) = .ok (d, s) := by
  rw [Reader.escape, h]
  exact plainEscape?_ne h

theorem toOption_lowSurrogate {a b c d : Char} {m : Nat} (h : Reader.fourHex? a b c d = some m)
    (n : Nat) (s : List Symbol) : (Reader.lowSurrogate n
      (.char '\\' :: .char 'u' :: .char a :: .char b :: .char c :: .char d :: s)).toOption =
        if isLow m then some (joined n m, s) else none := by
  rw [Reader.lowSurrogate, codeUnit_eq h]
  have hlow : isLow m = !(m < 0xDC00 || 0xDFFF < m) := by
    rw [isLow, Bool.eq_iff_iff]
    simp
  show Except.toOption (if (m < 0xDC00 || 0xDFFF < m) = true then _ else _) = _
  rw [hlow]
  cases (decide (m < 0xDC00) || decide (0xDFFF < m)) <;> rfl

/-- Only the second half of a surrogate pair is read behind the first. -/
theorem Content.lowSurrogate_eq_none {ps : List Piece} {s rest : List Symbol}
    (h : Content ps s rest) (hps : ∀ m ps', ps ≠ .unit m :: ps') (n : Nat) :
    (Reader.lowSurrogate n s).toOption = none := by
  cases h with
  | close rest => rfl
  | @char c ps s rest _ hbackslash _ _ =>
    unfold Reader.lowSurrogate
    split <;> first | rfl | simp_all
  | stray k _ => rfl
  | @escape c d ps s rest hletter _ =>
    unfold Reader.lowSurrogate
    have := plainEscape?_ne hletter
    split <;> first | rfl | simp_all
  | unit _ _ => exact absurd rfl (hps _ _)

theorem toOption_escape_unit {a b c d : Char} {n : Nat} (h : Reader.fourHex? a b c d = some n)
    (s : List Symbol) :
    (Reader.escape (.char 'u' :: .char a :: .char b :: .char c :: .char d :: s)).toOption =
      if isLow n then none
      else if isHigh n then (Reader.lowSurrogate n s).toOption
      else some (Char.ofNat n, s) := by
  rw [Reader.escape, Reader.unicodeEscape, codeUnit_eq h]
  show Except.toOption (if isLow n = true then _ else if isHigh n = true then _ else _) = _
  cases isLow n with
  | true => rfl
  | false => cases isHigh n <;> rfl

theorem chars?_unit (n : Nat) (ps : List Piece) : chars? (.unit n :: ps) =
    if isLow n then none
    else if isHigh n then
      match ps with
      | .unit m :: ps => if isLow m then (chars? ps).map (joined n m :: ·) else none
      | _ => none
    else (chars? ps).map (Char.ofNat n :: ·) :=
  chars?.eq_def _

/-- A string that is spelled is read as the characters that its pieces make, if they make any. -/
theorem Content.contentChars_eq {ps : List Piece} {s rest : List Symbol} (h : Content ps s rest)
    {n : Nat} (hn : s.length ≤ n) : contentChars n s = (chars? ps).map (·, rest) := by
  -- Both halves of a surrogate pair are read at once, hence the induction on the number of steps.
  induction n generalizing ps s with
  | zero => exact absurd h.length_lt (by omega)
  | succ n ih =>
    cases h with
    | close rest => rfl
    | char hquote hbackslash hcontrol more =>
      rw [contentChars_char n _ hquote hbackslash hcontrol,
        ih more (Nat.le_of_succ_le_succ hn), chars?, Option.map_map, Option.map_map]
      rfl
    | stray k more => exact contentChars_stray n _ k
    | @escape c d ps s rest hletter more =>
      have hs : s.length ≤ n := by
        simp only [List.length_cons] at hn
        omega
      rw [contentChars_escape, escape_letter hletter, chars?, Except.toOption, Option.bind_some,
        ih more hs, Option.map_map, Option.map_map]
      rfl
    | @unit a b c d k ps s rest hdigits more =>
      have hs : s.length ≤ n := by
        simp only [List.length_cons] at hn
        omega
      rw [contentChars_escape, toOption_escape_unit hdigits, chars?_unit]
      cases isLow k with
      | true => rfl
      | false =>
        cases isHigh k with
        | false =>
          simp only [Bool.false_eq_true, if_false, Option.bind_some, ih more hs, Option.map_map]
          rfl
        | true =>
          simp only [Bool.false_eq_true, if_false, if_true]
          by_cases hpair : ∃ m ps', ps = .unit m :: ps'
          · obtain ⟨m, ps', rfl⟩ := hpair
            cases more with
            | @unit a b c d m ps s rest hdigits' more =>
              have hs' : s.length ≤ n := by
                simp only [List.length_cons] at hs
                omega
              rw [toOption_lowSurrogate hdigits']
              dsimp only
              cases isLow m with
              | false => rfl
              | true =>
                simp only [if_true, Option.bind_some, ih more hs', Option.map_map]
                rfl
          · push Not at hpair
            rw [more.lowSurrogate_eq_none hpair]
            split
            · exact absurd rfl (hpair _ _)
            · rfl

theorem Content.toOption_string {ps : List Piece} {s rest : List Symbol} (h : Content ps s rest) :
    (Reader.string s).toOption = (chars? ps).map fun cs => (String.ofList cs, rest) := by
  rw [Grammar.toOption_string, h.contentChars_eq (Nat.le_refl _), Option.map_map]
  rfl

end Grammar

end RemoteSettings
