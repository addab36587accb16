import RemoteSettings.Proofs.Json.Lexing

/-!
# Values are read by the grammar

Whatever can be passed over is spelled by the grammar, and whatever can be read can be passed over.
Conversely a phrase that is spelled is passed over, and read as what it means, given steps enough.
So the texts that are read are those of the trees that mean a value.

## Main definitions

* `Grammar.Sound`, `Grammar.Passed` — what is passed over is spelled, and what is read is passed
  over, in a number of steps.
* `Grammar.Reads` — a phrase is passed over and read as what it means.

## Main results

* `Grammar.sound`, `Grammar.passed` — what is read is spelled.
* `Grammar.Spells.reads` — **what is spelled is passed over, and read as what it means.**
* `Json.read_eq_ok_iff`, `Json.parse_eq_ok_iff` — **a text is read as JSON exactly if it is the text
  of a tree that means it.**
-/

namespace RemoteSettings.Grammar

/-! ### Where a phrase begins and ends -/

theorem Fraction.length_le {ds : List Nat} {s rest : List Symbol} (h : Fraction ds s rest) :
    rest.length ≤ s.length := by
  cases h with
  | absent s => exact Nat.le_refl _
  | present _ hrun =>
    rw [List.length_cons, hrun.length_eq]
    omega

theorem Exponent.length_le {e : Option (Bool × List Nat)} {s rest : List Symbol}
    (h : Exponent e s rest) : rest.length ≤ s.length := by
  cases h with
  | absent s => exact Nat.le_refl _
  | @present x negative ds s t rest _ hsign _ hrun =>
    have hlength := hrun.length_eq
    have hsign : t.length ≤ s.length := by
      cases hsign <;> simp
    rw [List.length_cons]
    omega

theorem Magnitude.length_lt {l : Literal} {s rest : List Symbol} (h : Magnitude l s rest) :
    rest.length < s.length := by
  obtain ⟨t, u, hrun, hfraction, hexponent⟩ := h.exists_parts
  have hpos := List.length_pos_iff.mpr h.nonempty
  have hlength := hrun.length_eq
  have hfraction := hfraction.length_le
  have hexponent := hexponent.length_le
  omega

theorem Spells.length_lt {p : Phrase} {s rest : List Symbol} (h : Spells p s rest) :
    rest.length < s.length := by
  induction h with
  | nullWord rest | trueWord rest | falseWord rest =>
    simp only [List.length_append, List.length_map, List.length_cons]
    omega
  | string hcontent =>
    have := hcontent.length_lt
    rw [List.length_cons]
    omega
  | negative _ hmagnitude =>
    have := hmagnitude.length_lt
    rw [List.length_cons]
    omega
  | positive _ hmagnitude => exact hmagnitude.length_lt
  | emptyArray hclose =>
    have := hclose.length_le
    simp only [List.length_cons] at this ⊢
    omega
  | array _ ih =>
    rw [List.length_cons]
    omega
  | emptyObject hclose =>
    have := hclose.length_le
    simp only [List.length_cons] at this ⊢
    omega
  | object hquote _ ih =>
    have := hquote.length_le
    simp only [List.length_cons] at this ⊢
    omega
  | lastItem hblanks _ hclose ih =>
    have := hblanks.length_le
    have := hclose.length_le
    simp only [List.length_cons] at this ⊢
    omega
  | item hblanks _ hcomma _ ih ihmore =>
    have := hblanks.length_le
    have := hcomma.length_le
    simp only [List.length_cons] at this ⊢
    omega
  | lastMember hkey hcolon hblanks _ hclose ih =>
    have := hkey.length_lt
    have := hcolon.length_le
    have := hblanks.length_le
    have := hclose.length_le
    simp only [List.length_cons] at *
    omega
  | member hkey hcolon hblanks _ hcomma hquote _ ih ihmore =>
    have := hkey.length_lt
    have := hcolon.length_le
    have := hblanks.length_le
    have := hcomma.length_le
    have := hquote.length_le
    simp only [List.length_cons] at *
    omega

/-- What a number begins with is a digit. -/
theorem Magnitude.exists_digit {l : Literal} {s rest : List Symbol} (h : Magnitude l s rest) :
    ∃ x t d, s = x :: t ∧ Reader.digit? x = some d := by
  obtain ⟨t, u, hrun, -, -⟩ := h.exists_parts
  have hne := h.nonempty
  generalize l.integer = ds at hrun hne
  cases hrun with
  | nil s => exact absurd rfl hne
  | cons hdigit _ => exact ⟨_, _, _, rfl, hdigit⟩

theorem isBlank_of_digit {x : Symbol} {d : Nat} (h : Reader.digit? x = some d) :
    Reader.isBlank x = false := by
  cases hblank : Reader.isBlank x with
  | false => rfl
  | true =>
    have hnone := (stops_of_isBlank (s := []) hblank x rfl).1
    rw [hnone] at h
    cases h

/-- A value begins with something that is neither blank nor the end of an array. -/
theorem Spells.exists_cons {t : Tree} {s rest : List Symbol} (h : Spells (.value t) s rest) :
    ∃ x s', s = x :: s' ∧ Reader.isBlank x = false ∧ x ≠ .char ']' := by
  cases h with
  | positive _ hmagnitude =>
    obtain ⟨x, s', d, rfl, hdigit⟩ := hmagnitude.exists_digit
    refine ⟨x, s', rfl, isBlank_of_digit hdigit, ?_⟩
    rintro rfl
    cases hdigit
  | _ => exact ⟨_, _, rfl, by decide, by decide⟩

/-- Blanks may stand before items. -/
theorem Spells.of_blanks {ts : List Tree} {s t rest : List Symbol} (h : Spells (.items ts) t rest)
    (hblanks : Blanks s t) : Spells (.items ts) s rest := by
  cases h with
  | lastItem hfront hvalue hclose => exact .lastItem (hblanks.trans hfront) hvalue hclose
  | item hfront hvalue hcomma hmore => exact .item (hblanks.trans hfront) hvalue hcomma hmore

/-- No blanks need stand before items. -/
theorem Spells.skipBlanks {ts : List Tree} {s rest : List Symbol}
    (h : Spells (.items ts) s rest) : Spells (.items ts) (Reader.skipBlanks s) rest := by
  cases h with
  | lastItem hblanks hvalue hclose =>
    obtain ⟨x, s', rfl, hx, -⟩ := hvalue.exists_cons
    rw [hblanks.skipBlanks_cons hx]
    exact .lastItem (.refl _) hvalue hclose
  | item hblanks hvalue hcomma hmore =>
    obtain ⟨x, s', rfl, hx, -⟩ := hvalue.exists_cons
    rw [hblanks.skipBlanks_cons hx]
    exact .item (.refl _) hvalue hcomma hmore

/-- The items of an array begin with a value. -/
theorem Spells.exists_item {ts : List Tree} {s rest : List Symbol} (h : Spells (.items ts) s rest) :
    ∃ x s', Reader.skipBlanks s = x :: s' ∧ x ≠ .char ']' := by
  cases h with
  | lastItem hblanks hvalue _ =>
    obtain ⟨x, s', rfl, hblank, hx⟩ := hvalue.exists_cons
    exact ⟨x, s', hblanks.skipBlanks_cons hblank, hx⟩
  | item hblanks hvalue _ _ =>
    obtain ⟨x, s', rfl, hblank, hx⟩ := hvalue.exists_cons
    exact ⟨x, s', hblanks.skipBlanks_cons hblank, hx⟩

/-! ### What is passed over is spelled -/

theorem word_eq_ok {cs : List Char} {s rest : List Symbol} (h : Reader.word cs s = .ok rest) :
    s = cs.map .char ++ rest := by
  induction cs generalizing s with
  | nil => exact Except.ok.inj h
  | cons c cs ih =>
    cases s with
    | nil => cases h
    | cons x s =>
      rw [Reader.word] at h
      split at h
      · next hx =>
        rw [hx, ih h]
        rfl
      · cases h

theorem word_append (cs : List Char) (rest : List Symbol) :
    Reader.word cs (cs.map .char ++ rest) = .ok rest := by
  induction cs with
  | nil => rfl
  | cons c cs ih =>
    rw [List.map_cons, List.cons_append, Reader.word, if_pos rfl, ih]

theorem blanks_of_colon {s rest : List Symbol} (h : Reader.colon s = .ok rest) :
    Blanks s (.char ':' :: rest) := by
  unfold Reader.colon at h
  split at h
  · cases h
  · next hcolon =>
    cases h
    exact blanks_of_skipBlanks_eq hcolon
  · cases h

/-- Whatever is passed over in a number of steps is spelled. -/
structure Sound (fuel : Nat) : Prop where
  value : ∀ s rest, Skim.value fuel s = some rest →
    ∃ t, Spells (.value t) (Reader.skipBlanks s) rest
  items : ∀ s rest, Skim.items fuel s = some rest → ∃ ts, Spells (.items ts) s rest
  members : ∀ s rest, Skim.members fuel s = some rest → ∃ ms, Spells (.members ms) s rest

theorem Sound.zero : Sound 0 where
  value _ _ h := nomatch h
  items _ _ h := nomatch h
  members _ _ h := nomatch h

theorem exists_magnitude (negative : Bool) {s rest : List Symbol}
    (h : Skim.number s = some rest) : ∃ l, l.negative = negative ∧ Magnitude l s rest := by
  rw [skim_number_eq negative, Option.map_eq_some_iff] at h
  obtain ⟨⟨l, t⟩, hl, rfl⟩ := h
  exact ⟨l, magnitude_of_literal? hl⟩

theorem Sound.value_succ {fuel : Nat} (ih : Sound fuel) {s rest : List Symbol}
    (h : Skim.value (fuel + 1) s = some rest) :
    ∃ t, Spells (.value t) (Reader.skipBlanks s) rest := by
  rw [Skim.value] at h
  split at h
  · cases h
  · next hs =>
    rw [hs, word_eq_ok (toOption_eq_some_iff.mp h)]
    exact ⟨_, .nullWord rest⟩
  · next hs =>
    rw [hs, word_eq_ok (toOption_eq_some_iff.mp h)]
    exact ⟨_, .trueWord rest⟩
  · next hs =>
    rw [hs, word_eq_ok (toOption_eq_some_iff.mp h)]
    exact ⟨_, .falseWord rest⟩
  · next hs =>
    obtain ⟨ps, hps⟩ := content_of_skim h
    rw [hs]
    exact ⟨_, .string hps⟩
  · next hs =>
    obtain ⟨l, hsign, hmagnitude⟩ := exists_magnitude true h
    rw [hs]
    exact ⟨_, .negative hsign hmagnitude⟩
  · next s' hs =>
    rw [hs]
    split at h
    · next hclose =>
      cases h
      exact ⟨_, .emptyArray (blanks_of_skipBlanks_eq hclose)⟩
    · obtain ⟨ts, hitems⟩ := ih.items _ _ h
      exact ⟨_, .array (hitems.of_blanks (blanks_skipBlanks s'))⟩
  · next s' hs =>
    rw [hs]
    split at h
    · next hclose =>
      cases h
      exact ⟨_, .emptyObject (blanks_of_skipBlanks_eq hclose)⟩
    · next hquote =>
      obtain ⟨ms, hmembers⟩ := ih.members _ _ h
      exact ⟨_, .object (blanks_of_skipBlanks_eq hquote) hmembers⟩
    · cases h
  · next x s' _ _ _ _ _ _ _ hs =>
    split at h
    · obtain ⟨l, hsign, hmagnitude⟩ := exists_magnitude false h
      rw [hs]
      exact ⟨_, .positive hsign hmagnitude⟩
    · cases h

theorem Sound.items_succ {fuel : Nat} (ih : Sound fuel) {s rest : List Symbol}
    (h : Skim.items (fuel + 1) s = some rest) : ∃ ts, Spells (.items ts) s rest := by
  obtain ⟨s₂, hvalue, h⟩ := Option.bind_eq_some_iff.mp h
  obtain ⟨t, ht⟩ := ih.value _ _ hvalue
  split at h
  · next hclose =>
    cases h
    exact ⟨_, .lastItem (blanks_skipBlanks s) ht (blanks_of_skipBlanks_eq hclose)⟩
  · next hcomma =>
    obtain ⟨ts, hmore⟩ := ih.items _ _ h
    exact ⟨_, .item (blanks_skipBlanks s) ht (blanks_of_skipBlanks_eq hcomma) hmore⟩
  · cases h

theorem Sound.members_succ {fuel : Nat} (ih : Sound fuel) {s rest : List Symbol}
    (h : Skim.members (fuel + 1) s = some rest) : ∃ ms, Spells (.members ms) s rest := by
  obtain ⟨s₁, hkey, h⟩ := Option.bind_eq_some_iff.mp h
  obtain ⟨s₂, hcolon, h⟩ := Option.bind_eq_some_iff.mp h
  obtain ⟨s₄, hvalue, h⟩ := Option.bind_eq_some_iff.mp h
  obtain ⟨ps, hps⟩ := content_of_skim hkey
  have hcolon := blanks_of_colon (toOption_eq_some_iff.mp hcolon)
  obtain ⟨t, ht⟩ := ih.value _ _ hvalue
  split at h
  · next hclose =>
    cases h
    exact ⟨_, .lastMember hps hcolon (blanks_skipBlanks s₂) ht (blanks_of_skipBlanks_eq hclose)⟩
  · next hcomma =>
    split at h
    · next hquote =>
      obtain ⟨ms, hmore⟩ := ih.members _ _ h
      exact ⟨_, .member hps hcolon (blanks_skipBlanks s₂) ht (blanks_of_skipBlanks_eq hcomma)
        (blanks_of_skipBlanks_eq hquote) hmore⟩
    · cases h
  · cases h

theorem sound (fuel : Nat) : Sound fuel := by
  induction fuel with
  | zero => exact Sound.zero
  | succ fuel ih =>
    exact ⟨fun _ _ => ih.value_succ, fun _ _ => ih.items_succ, fun _ _ => ih.members_succ⟩

/-! ### What is read can be passed over -/

/-- What begins with a digit is a number. -/
theorem skim_value_of_digit {fuel d : Nat} {x : Symbol} {s s' : List Symbol}
    (hs : Reader.skipBlanks s = x :: s') (hdigit : Reader.digit? x = some d) :
    Skim.value (fuel + 1) s = Skim.number (x :: s') := by
  rw [Skim.value, hs]
  split
  case h_9 heq =>
    cases heq
    rw [hdigit]
    rfl
  case h_1 heq => cases heq
  all_goals
    next heq =>
      cases heq
      cases hdigit

/-- Blanks before a value do not count. -/
theorem skim_value_blanks {s t : List Symbol} (h : Blanks s t) (fuel : Nat) :
    Skim.value fuel s = Skim.value fuel t := by
  cases fuel with
  | zero => rfl
  | succ fuel => rw [Skim.value, Skim.value, h.skipBlanks_eq]

theorem skim_items_blanks {s t : List Symbol} (h : Blanks s t) (fuel : Nat) :
    Skim.items fuel s = Skim.items fuel t := by
  cases fuel with
  | zero => rfl
  | succ fuel => rw [Skim.items, Skim.items, skim_value_blanks h]

/-- Whatever is read in a number of steps can be passed over in as many. -/
structure Passed (fuel : Nat) : Prop where
  value : ∀ depth s j rest, Reader.value fuel depth s = .ok (j, rest) →
    Skim.value fuel s = some rest
  items : ∀ depth s js rest, Reader.items fuel depth s = .ok (js, rest) →
    Skim.items fuel s = some rest
  members : ∀ depth s es rest, Reader.members fuel depth s = .ok (es, rest) →
    Skim.members fuel s = some rest

theorem Passed.zero : Passed 0 where
  value _ _ _ _ h := nomatch h
  items _ _ _ _ h := nomatch h
  members _ _ _ _ h := nomatch h

theorem skim_of_number {negative : Bool} {s rest : List Symbol} {n : Number}
    (h : Reader.number negative s = .ok (n, rest)) : Skim.number s = some rest := by
  have hread := toOption_eq_some_iff.mpr h
  rw [toOption_number, Option.bind_eq_some_iff] at hread
  obtain ⟨⟨l, t⟩, hl, hn⟩ := hread
  obtain ⟨m, -, heq⟩ := Option.map_eq_some_iff.mp hn
  cases heq
  rw [skim_number_eq negative, hl]
  rfl

theorem Passed.value_succ {fuel : Nat} (ih : Passed fuel) {depth : Nat} {s rest : List Symbol}
    {j : Json} (h : Reader.value (fuel + 1) depth s = .ok (j, rest)) :
    Skim.value (fuel + 1) s = some rest := by
  rw [Reader.value] at h
  split at h
  · cases h
  · next hs =>
    obtain ⟨t, hword, h⟩ := bind_eq_ok h
    cases h
    simp only [Skim.value, hs, hword, Except.toOption]
  · next hs =>
    obtain ⟨t, hword, h⟩ := bind_eq_ok h
    cases h
    simp only [Skim.value, hs, hword, Except.toOption]
  · next hs =>
    obtain ⟨t, hword, h⟩ := bind_eq_ok h
    cases h
    simp only [Skim.value, hs, hword, Except.toOption]
  · next hs =>
    obtain ⟨⟨text, t⟩, hstring, h⟩ := bind_eq_ok h
    cases h
    simp only [Skim.value, hs, skim_of_string hstring]
  · next hs =>
    obtain ⟨⟨n, t⟩, hnumber, h⟩ := bind_eq_ok h
    cases h
    simp only [Skim.value, hs, skim_of_number hnumber]
  · next s' hs =>
    split at h
    · cases h
    · split at h
      · cases h
      · next hclose =>
        cases h
        simp only [Skim.value, hs, hclose]
      · obtain ⟨⟨js, u⟩, hitems, h⟩ := bind_eq_ok h
        cases h
        simp only [Skim.value, hs]
        exact ih.items _ _ _ _ hitems
  · next s' hs =>
    split at h
    · cases h
    · split at h
      · cases h
      · next hclose =>
        cases h
        simp only [Skim.value, hs, hclose]
      · next hquote =>
        obtain ⟨⟨es, u⟩, hmembers, h⟩ := bind_eq_ok h
        cases h
        simp only [Skim.value, hs, hquote, ih.members _ _ _ _ hmembers]
      · cases h
  · next hs =>
    split at h
    · next hdigit =>
      obtain ⟨⟨n, t⟩, hnumber, h⟩ := bind_eq_ok h
      cases h
      obtain ⟨d, hd⟩ := Option.isSome_iff_exists.mp hdigit
      exact (skim_value_of_digit hs hd).trans (skim_of_number hnumber)
    · cases h

theorem Passed.items_succ {fuel : Nat} (ih : Passed fuel) {depth : Nat} {s rest : List Symbol}
    {js : List Json} (h : Reader.items (fuel + 1) depth s = .ok (js, rest)) :
    Skim.items (fuel + 1) s = some rest := by
  rw [Reader.items] at h
  obtain ⟨⟨item, t⟩, hitem, h⟩ := bind_eq_ok h
  rw [Skim.items, ih.value _ _ _ _ hitem, Option.bind_eq_bind, Option.bind_some]
  dsimp only at h
  split at h
  · cases h
  · next hclose =>
    cases h
    simp only [hclose]
  · next hcomma =>
    split at h
    · cases h
    · cases h
    · obtain ⟨⟨more, u⟩, hmore, h⟩ := bind_eq_ok h
      cases h
      simp only [hcomma]
      rw [skim_items_blanks (blanks_skipBlanks _)]
      exact ih.items _ _ _ _ hmore
  · cases h

theorem Passed.members_succ {fuel : Nat} (ih : Passed fuel) {depth : Nat} {s rest : List Symbol}
    {es : List (String × Json)} (h : Reader.members (fuel + 1) depth s = .ok (es, rest)) :
    Skim.members (fuel + 1) s = some rest := by
  rw [Reader.members] at h
  obtain ⟨⟨key, t⟩, hkey, h⟩ := bind_eq_ok h
  obtain ⟨u, hcolon, h⟩ := bind_eq_ok h
  obtain ⟨⟨item, v⟩, hitem, h⟩ := bind_eq_ok h
  rw [Skim.members, skim_of_string hkey]
  simp only [Option.bind_eq_bind, Option.bind_some, Skim.colon, hcolon, Except.toOption,
    ih.value _ _ _ _ hitem]
  dsimp only at h
  split at h
  · cases h
  · next hclose =>
    cases h
    simp only [hclose]
  · next hcomma =>
    split at h
    · cases h
    · cases h
    · next hquote =>
      obtain ⟨⟨more, w⟩, hmore, h⟩ := bind_eq_ok h
      cases h
      simp only [hcomma, hquote, ih.members _ _ _ _ hmore]
    · cases h
  · cases h

theorem passed (fuel : Nat) : Passed fuel := by
  induction fuel with
  | zero => exact Passed.zero
  | succ fuel ih =>
    exact ⟨fun _ _ _ _ => ih.value_succ, fun _ _ _ _ => ih.items_succ,
      fun _ _ _ _ => ih.members_succ⟩

/-! ### What is spelled is passed over, and read as what it means -/

theorem value_blanks {s t : List Symbol} (h : Blanks s t) (fuel depth : Nat) :
    (Reader.value fuel depth s).toOption = (Reader.value fuel depth t).toOption := by
  cases fuel with
  | zero => rfl
  | succ fuel => rw [Reader.value, Reader.value, h.skipBlanks_eq]

theorem items_blanks {s t : List Symbol} (h : Blanks s t) (fuel depth : Nat) :
    (Reader.items fuel depth s).toOption = (Reader.items fuel depth t).toOption := by
  cases fuel with
  | zero => rfl
  | succ fuel => rw [Reader.items, Reader.items, toOption_bind, toOption_bind, value_blanks h]

theorem value_of_digit {fuel depth d : Nat} {x : Symbol} {s : List Symbol}
    (hdigit : Reader.digit? x = some d) (hblank : Reader.isBlank x = false) :
    Reader.value (fuel + 1) depth (x :: s) = (do
      let (n, rest) ← Reader.number false (x :: s)
      .ok (.number n, rest)) := by
  rw [Reader.value, (Blanks.refl (x :: s)).skipBlanks_cons hblank]
  split
  case h_9 heq =>
    cases heq
    rw [hdigit]
    rfl
  case h_1 heq => cases heq
  all_goals
    next heq =>
      cases heq
      cases hdigit

/-! What is passed over and read behind an opening bracket or brace. -/

section Open

variable (fuel depth : Nat) (s : List Symbol)

theorem skim_bracket : Skim.value (fuel + 1) (.char '[' :: s) =
    match Reader.skipBlanks s with
    | .char ']' :: rest => some rest
    | rest => Skim.items fuel rest := rfl

theorem value_bracket : Reader.value (fuel + 1) (depth + 1) (.char '[' :: s) =
    match Reader.skipBlanks s with
    | [] => Reader.failAt .endInList []
    | .char ']' :: rest => .ok (.array [], rest)
    | rest => (do
      let (items, rest) ← Reader.items fuel depth rest
      .ok (.array items, rest)) := rfl

theorem skim_brace : Skim.value (fuel + 1) (.char '{' :: s) =
    match Reader.skipBlanks s with
    | .char '}' :: rest => some rest
    | .char '"' :: rest => Skim.members fuel rest
    | _ => none := rfl

theorem value_brace : Reader.value (fuel + 1) (depth + 1) (.char '{' :: s) =
    match Reader.skipBlanks s with
    | [] => Reader.failAt .endInObject []
    | .char '}' :: rest => .ok (.object [], rest)
    | .char '"' :: rest => do
      let (members, rest) ← Reader.members fuel depth rest
      .ok (.object (Keyed.ofPairs members), rest)
    | rest => Reader.failPeek .keyNotString rest := rfl

end Open

theorem skim_array {s s' : List Symbol} {x : Symbol} (hs : Reader.skipBlanks s = x :: s')
    (hx : x ≠ .char ']') (fuel : Nat) :
    Skim.value (fuel + 1) (.char '[' :: s) = Skim.items fuel s := by
  rw [skim_items_blanks (blanks_of_skipBlanks_eq hs)]
  rw [skim_bracket, hs]
  split
  · next heq => exact absurd (List.cons.inj heq).1 hx
  · rfl

theorem value_array {s s' : List Symbol} {x : Symbol} (hs : Reader.skipBlanks s = x :: s')
    (hx : x ≠ .char ']') (fuel depth : Nat) :
    (Reader.value (fuel + 1) (depth + 1) (.char '[' :: s)).toOption =
      (Reader.items fuel depth s).toOption.map fun p => (.array p.1, p.2) := by
  rw [items_blanks (blanks_of_skipBlanks_eq hs)]
  rw [value_bracket, hs]
  split
  · next heq => cases heq
  · next heq => exact absurd (List.cons.inj heq).1 hx
  · rw [toOption_bind]
    cases (Reader.items fuel depth (x :: s')).toOption <;> rfl

/-- A phrase is passed over in steps enough, and read as what it means. -/
def Reads : Phrase → List Symbol → List Symbol → Prop
  | .value t, s, rest => Stops rest → ∀ fuel, 2 * s.length ≤ fuel + 2 * rest.length + 1 →
    Skim.value fuel s = some rest ∧
      ∀ depth, (Reader.value fuel depth s).toOption = (t.json? depth).map (·, rest)
  | .items ts, s, rest => ∀ fuel, 2 * s.length ≤ fuel + 2 * rest.length →
    Skim.items fuel s = some rest ∧
      ∀ depth, (Reader.items fuel depth s).toOption = (jsons? depth ts).map (·, rest)
  | .members ms, s, rest => ∀ fuel, 2 * s.length ≤ fuel + 2 * rest.length →
    Skim.members fuel s = some rest ∧
      ∀ depth, (Reader.members fuel depth s).toOption = (members? depth ms).map (·, rest)

/-- There are steps enough for at least one. -/
theorem exists_succ {fuel n m : Nat} (h : 2 * n ≤ fuel + 2 * m + 1) (hlt : m < n) :
    ∃ k, fuel = k + 1 := Nat.exists_eq_add_one_of_ne_zero (by omega)

section Atoms

variable {s rest : List Symbol}

/-- A word is passed over, and read as what it stands for. -/
theorem reads_word {t : Tree} {j : Json} {c : Char} {cs : List Char}
    (hskim : ∀ fuel s, Skim.value (fuel + 1) (.char c :: s) = (Reader.word cs s).toOption)
    (hread : ∀ fuel depth s, Reader.value (fuel + 1) depth (.char c :: s) = (do
      let rest ← Reader.word cs s
      .ok (j, rest)))
    (hj : ∀ depth, t.json? depth = some j) :
    Reads (.value t) ((c :: cs).map .char ++ rest) rest := by
  intro _ fuel hfuel
  obtain ⟨fuel, rfl⟩ := exists_succ hfuel (by
    simp only [List.length_append, List.length_map, List.length_cons]
    omega)
  rw [List.map_cons, List.cons_append, hskim, word_append]
  refine ⟨rfl, fun depth => ?_⟩
  rw [hread, word_append, hj]
  rfl

theorem reads_string {ps : List Piece} (h : Content ps s rest) :
    Reads (.value (.string ps)) (.char '"' :: s) rest := by
  intro _ fuel hfuel
  obtain ⟨fuel, rfl⟩ := exists_succ hfuel (Spells.string h).length_lt
  refine ⟨h.skim_eq, fun depth => ?_⟩
  show Except.toOption (Reader.string s >>= fun p => .ok (Json.string p.1, p.2)) = _
  rw [toOption_bind, h.toOption_string, Tree.json?]
  cases chars? ps <;> rfl

/-- What a number without its sign is read as. -/
theorem Magnitude.toOption_number {l : Literal} (h : Magnitude l s rest) (hrest : Stops rest) :
    Skim.number s = some rest ∧
      (Reader.number l.negative s).toOption = l.toNumber?.map (·, rest) := by
  rw [skim_number_eq l.negative, Grammar.toOption_number, h.literal?_eq hrest]
  exact ⟨rfl, rfl⟩

theorem reads_negative {l : Literal} (hsign : l.negative = true) (h : Magnitude l s rest) :
    Reads (.value (.number l)) (.char '-' :: s) rest := by
  intro hrest fuel hfuel
  obtain ⟨fuel, rfl⟩ := exists_succ hfuel (Spells.negative hsign h).length_lt
  obtain ⟨hskim, hread⟩ := h.toOption_number hrest
  refine ⟨hskim, fun depth => ?_⟩
  show Except.toOption (do
    let (n, rest) ← Reader.number true s
    .ok (Json.number n, rest)) = _
  rw [toOption_bind, ← hsign, hread, Tree.json?]
  cases l.toNumber? <;> rfl

theorem reads_positive {l : Literal} (hsign : l.negative = false) (h : Magnitude l s rest) :
    Reads (.value (.number l)) s rest := by
  intro hrest fuel hfuel
  obtain ⟨fuel, rfl⟩ := exists_succ hfuel h.length_lt
  obtain ⟨hskim, hread⟩ := h.toOption_number hrest
  obtain ⟨x, s', d, rfl, hdigit⟩ := h.exists_digit
  have hblank : Reader.isBlank x = false := isBlank_of_digit hdigit
  refine ⟨?_, fun depth => ?_⟩
  · rw [skim_value_of_digit ((Blanks.refl _).skipBlanks_cons hblank) hdigit, hskim]
  · rw [value_of_digit hdigit hblank, toOption_bind, ← hsign, hread, Tree.json?]
    cases l.toNumber? <;> rfl

end Atoms

section Arrays

variable {s s₁ s₂ s₃ rest : List Symbol} {t : Tree} {ts : List Tree}

theorem reads_emptyArray (hclose : Blanks s (.char ']' :: rest)) :
    Reads (.value (.array [])) (.char '[' :: s) rest := by
  intro _ fuel hfuel
  obtain ⟨fuel, rfl⟩ := exists_succ hfuel (Spells.emptyArray hclose).length_lt
  have hs := hclose.skipBlanks_cons (by decide)
  refine ⟨by rw [skim_bracket, hs]; rfl, fun depth => ?_⟩
  cases depth with
  | zero => rw [Tree.json?]; rfl
  | succ depth => rw [value_bracket, hs, Tree.json?, jsons?]; rfl

theorem reads_array (h : Spells (.items ts) s rest) (ih : Reads (.items ts) s rest) :
    Reads (.value (.array ts)) (.char '[' :: s) rest := by
  intro _ fuel hfuel
  obtain ⟨fuel, rfl⟩ := exists_succ hfuel (Spells.array h).length_lt
  rw [List.length_cons] at hfuel
  obtain ⟨hskim, hread⟩ := ih fuel (by omega)
  obtain ⟨x, s', hs, hx⟩ := h.exists_item
  refine ⟨(skim_array hs hx fuel).trans hskim, fun depth => ?_⟩
  cases depth with
  | zero => rw [Tree.json?]; rfl
  | succ depth =>
    rw [value_array hs hx, hread, Tree.json?, Option.map_map, Option.map_map]
    rfl

theorem reads_lastItem (hblanks : Blanks s s₁) (hvalue : Spells (.value t) s₁ s₂)
    (ih : Reads (.value t) s₁ s₂) (hclose : Blanks s₂ (.char ']' :: rest)) :
    Reads (.items [t]) s rest := by
  intro fuel hfuel
  have hlength := hblanks.length_le
  have hlt := hvalue.length_lt
  have hclose' := hclose.length_le
  rw [List.length_cons] at hclose'
  obtain ⟨fuel, rfl⟩ := exists_succ (Nat.le_succ_of_le hfuel) (by omega)
  have hstops := hclose.stops (stops_cons (by decide) (by decide) (by decide))
  obtain ⟨hskim, hread⟩ := ih hstops fuel (by omega)
  have hs := hclose.skipBlanks_cons (by decide)
  constructor
  · simp only [Skim.items, skim_value_blanks hblanks, hskim, hs, Option.bind_eq_bind,
      Option.bind_some]
  · intro depth
    rw [Reader.items, toOption_bind, value_blanks hblanks, hread, jsons?, jsons?]
    cases t.json? depth with
    | none => rfl
    | some j =>
      simp only [Option.map_some, Option.bind_some, hs]
      rfl

theorem reads_item (hblanks : Blanks s s₁) (hvalue : Spells (.value t) s₁ s₂)
    (ih : Reads (.value t) s₁ s₂) (hcomma : Blanks s₂ (.char ',' :: s₃))
    (hmore : Spells (.items ts) s₃ rest) (ihmore : Reads (.items ts) s₃ rest) :
    Reads (.items (t :: ts)) s rest := by
  intro fuel hfuel
  have hlength := hblanks.length_le
  have hlt := hvalue.length_lt
  have hlt' := hmore.length_lt
  have hcomma' := hcomma.length_le
  rw [List.length_cons] at hcomma'
  obtain ⟨fuel, rfl⟩ := exists_succ (Nat.le_succ_of_le hfuel) (by omega)
  have hstops := hcomma.stops (stops_cons (by decide) (by decide) (by decide))
  obtain ⟨hskim, hread⟩ := ih hstops fuel (by omega)
  obtain ⟨hskim', hread'⟩ := ihmore fuel (by omega)
  have hs := hcomma.skipBlanks_cons (by decide)
  obtain ⟨x, s', hs', hx⟩ := hmore.exists_item
  constructor
  · simp only [Skim.items, skim_value_blanks hblanks, hskim, hs, Option.bind_eq_bind,
      Option.bind_some, hskim']
  · intro depth
    rw [Reader.items, toOption_bind, value_blanks hblanks, hread, jsons?]
    cases t.json? depth with
    | none => rfl
    | some j =>
      simp only [Option.map_some, Option.bind_some, hs, hs']
      split
      · next heq => cases heq
      · next heq => exact absurd (List.cons.inj heq).1 hx
      · rw [toOption_bind, ← items_blanks (blanks_of_skipBlanks_eq hs'), hread']
        cases jsons? depth ts <;> rfl

end Arrays

section Objects

variable {s s₁ s₂ s₃ s₄ s₅ s₆ rest : List Symbol} {t : Tree} {ps : List Piece}
  {ms : List (List Piece × Tree)}

theorem reads_emptyObject (hclose : Blanks s (.char '}' :: rest)) :
    Reads (.value (.object [])) (.char '{' :: s) rest := by
  intro _ fuel hfuel
  obtain ⟨fuel, rfl⟩ := exists_succ hfuel (Spells.emptyObject hclose).length_lt
  have hs := hclose.skipBlanks_cons (by decide)
  refine ⟨by rw [skim_brace, hs]; rfl, fun depth => ?_⟩
  cases depth with
  | zero => rw [Tree.json?]; rfl
  | succ depth => rw [value_brace, hs, Tree.json?, members?]; rfl

theorem reads_object (hquote : Blanks s (.char '"' :: s₁)) (h : Spells (.members ms) s₁ rest)
    (ih : Reads (.members ms) s₁ rest) : Reads (.value (.object ms)) (.char '{' :: s) rest := by
  intro _ fuel hfuel
  obtain ⟨fuel, rfl⟩ := exists_succ hfuel (Spells.object hquote h).length_lt
  have hlength := hquote.length_le
  rw [List.length_cons] at hfuel hlength
  obtain ⟨hskim, hread⟩ := ih fuel (by omega)
  have hs := hquote.skipBlanks_cons (by decide)
  refine ⟨by rw [skim_brace, hs]; exact hskim, fun depth => ?_⟩
  cases depth with
  | zero => rw [Tree.json?]; rfl
  | succ depth =>
    simp only [value_brace, hs, Tree.json?, toOption_bind, hread]
    cases members? depth ms <;> rfl

theorem colon_eq (h : Blanks s (.char ':' :: rest)) : Reader.colon s = .ok rest := by
  simp only [Reader.colon, h.skipBlanks_cons (by decide)]

theorem reads_lastMember (hkey : Content ps s s₁) (hcolon : Blanks s₁ (.char ':' :: s₂))
    (hblanks : Blanks s₂ s₃) (hvalue : Spells (.value t) s₃ s₄) (ih : Reads (.value t) s₃ s₄)
    (hclose : Blanks s₄ (.char '}' :: rest)) : Reads (.members [(ps, t)]) s rest := by
  intro fuel hfuel
  have hkey' := hkey.length_lt
  have hcolon' := hcolon.length_le
  have hlength := hblanks.length_le
  have hlt := hvalue.length_lt
  have hclose' := hclose.length_le
  rw [List.length_cons] at hcolon' hclose'
  obtain ⟨fuel, rfl⟩ := exists_succ (Nat.le_succ_of_le hfuel) (by omega)
  have hstops := hclose.stops (stops_cons (by decide) (by decide) (by decide))
  obtain ⟨hskim, hread⟩ := ih hstops fuel (by omega)
  have hs := hclose.skipBlanks_cons (by decide)
  constructor
  · simp only [Skim.members, Skim.colon, hkey.skim_eq, colon_eq hcolon, Except.toOption,
      skim_value_blanks hblanks, hskim, hs, Option.bind_eq_bind, Option.bind_some]
  · intro depth
    rw [Reader.members, toOption_bind, hkey.toOption_string, members?, members?]
    cases chars? ps with
    | none => rfl
    | some key =>
      simp only [Option.map_some, Option.bind_some, toOption_bind, colon_eq hcolon]
      rw [Except.toOption, Option.bind_some, value_blanks hblanks, hread]
      cases t.json? depth with
      | none => rfl
      | some j =>
        simp only [Option.map_some, Option.bind_some, hs]
        rfl

theorem reads_member (hkey : Content ps s s₁) (hcolon : Blanks s₁ (.char ':' :: s₂))
    (hblanks : Blanks s₂ s₃) (hvalue : Spells (.value t) s₃ s₄) (ih : Reads (.value t) s₃ s₄)
    (hcomma : Blanks s₄ (.char ',' :: s₅)) (hquote : Blanks s₅ (.char '"' :: s₆))
    (hmore : Spells (.members ms) s₆ rest) (ihmore : Reads (.members ms) s₆ rest) :
    Reads (.members ((ps, t) :: ms)) s rest := by
  intro fuel hfuel
  have hkey' := hkey.length_lt
  have hcolon' := hcolon.length_le
  have hlength := hblanks.length_le
  have hlt := hvalue.length_lt
  have hcomma' := hcomma.length_le
  have hquote' := hquote.length_le
  have hlt' := hmore.length_lt
  rw [List.length_cons] at hcolon' hcomma' hquote'
  obtain ⟨fuel, rfl⟩ := exists_succ (Nat.le_succ_of_le hfuel) (by omega)
  have hstops := hcomma.stops (stops_cons (by decide) (by decide) (by decide))
  obtain ⟨hskim, hread⟩ := ih hstops fuel (by omega)
  obtain ⟨hskim', hread'⟩ := ihmore fuel (by omega)
  have hs := hcomma.skipBlanks_cons (by decide)
  have hs' := hquote.skipBlanks_cons (by decide)
  constructor
  · simp only [Skim.members, Skim.colon, hkey.skim_eq, colon_eq hcolon, Except.toOption,
      skim_value_blanks hblanks, hskim, hs, hs', hskim', Option.bind_eq_bind, Option.bind_some]
  · intro depth
    rw [Reader.members, toOption_bind, hkey.toOption_string, members?]
    cases chars? ps with
    | none => rfl
    | some key =>
      simp only [Option.map_some, Option.bind_some, toOption_bind, colon_eq hcolon]
      rw [Except.toOption, Option.bind_some, value_blanks hblanks, hread]
      cases t.json? depth with
      | none => rfl
      | some j =>
        simp only [Option.map_some, Option.bind_some, hs, hs', toOption_bind, hread']
        cases members? depth ms <;> rfl

end Objects

/-- **What is spelled is passed over, and read as what it means.** -/
theorem Spells.reads {p : Phrase} {s rest : List Symbol} (h : Spells p s rest) :
    Reads p s rest := by
  induction h with
  | nullWord rest | trueWord rest | falseWord rest =>
    exact reads_word (fun _ _ => rfl) (fun _ _ _ => rfl) (fun depth => by rw [Tree.json?])
  | string hcontent => exact reads_string hcontent
  | negative hsign hmagnitude => exact reads_negative hsign hmagnitude
  | positive hsign hmagnitude => exact reads_positive hsign hmagnitude
  | emptyArray hclose => exact reads_emptyArray hclose
  | array h ih => exact reads_array h ih
  | emptyObject hclose => exact reads_emptyObject hclose
  | object hquote h ih => exact reads_object hquote h ih
  | lastItem hblanks h hclose ih => exact reads_lastItem hblanks h ih hclose
  | item hblanks h hcomma hmore ih ihmore => exact reads_item hblanks h ih hcomma hmore ihmore
  | lastMember hkey hcolon hblanks h hclose ih =>
    exact reads_lastMember hkey hcolon hblanks h ih hclose
  | member hkey hcolon hblanks h hcomma hquote hmore ih ihmore =>
    exact reads_member hkey hcolon hblanks h ih hcomma hquote hmore ihmore

/-- A value that is spelled behind blanks is read as what it means. -/
theorem Spells.value_eq {t : Tree} {s s₁ rest : List Symbol} (h : Spells (.value t) s₁ rest)
    (hblanks : Blanks s s₁) (hrest : Stops rest) (depth : Nat) :
    (Reader.value (2 * s.length + 1) depth s).toOption = (t.json? depth).map (·, rest) := by
  have hlength := hblanks.length_le
  rw [value_blanks hblanks]
  exact (h.reads hrest _ (by omega)).2 depth

/-- A value that is read is spelled behind blanks. -/
theorem exists_spells_of_value {fuel depth : Nat} {s rest : List Symbol} {j : Json}
    (h : Reader.value fuel depth s = .ok (j, rest)) :
    ∃ t, Spells (.value t) (Reader.skipBlanks s) rest :=
  (sound fuel).value _ _ ((passed fuel).value _ _ _ _ h)

theorem finish_eq_ok_iff {s : List Symbol} : Reader.finish s = .ok () ↔ Blanks s [] := by
  rw [blanks_nil_iff, Reader.finish]
  cases Reader.skipBlanks s with
  | nil => exact ⟨fun _ => rfl, fun _ => rfl⟩
  | cons x s => exact ⟨(nomatch ·), (nomatch ·)⟩

end RemoteSettings.Grammar

namespace RemoteSettings

open Grammar

/-- **A text is read as JSON exactly if it is the text of a tree that means it**: it obeys the
grammar, it does not nest too deep, none of its numbers is too large, and its strings make
characters. -/
theorem Json.read_eq_ok_iff {s : List Symbol} {j : Json} :
    Json.read s = .ok j ↔ ∃ t, Document t s ∧ t.json? maxDepth = some j := by
  constructor
  · intro h
    obtain ⟨⟨k, rest⟩, hvalue, h⟩ := bind_eq_ok (mapError_eq_ok h)
    obtain ⟨_, hfinish, h⟩ := bind_eq_ok h
    cases h
    have hrest := finish_eq_ok_iff.mp hfinish
    obtain ⟨t, ht⟩ := exists_spells_of_value hvalue
    refine ⟨t, ⟨_, rest, blanks_skipBlanks s, ht, hrest⟩, ?_⟩
    have hread := ht.value_eq (blanks_skipBlanks s) (hrest.stops stops_nil) maxDepth
    rw [toOption_eq_some_iff.mpr hvalue] at hread
    obtain ⟨m, hm, heq⟩ := Option.map_eq_some_iff.mp hread.symm
    cases heq
    exact hm
  · rintro ⟨t, ⟨s₁, rest, hblanks, ht, hrest⟩, hj⟩
    have hread := ht.value_eq hblanks (hrest.stops stops_nil) maxDepth
    rw [hj, Option.map_some, toOption_eq_some_iff] at hread
    unfold Json.read
    simp only [hread, finish_eq_ok_iff.mpr hrest, bind, Except.bind]
    rfl

theorem Json.parse_eq_ok_iff {s : String} {j : Json} : Json.parse s = .ok j ↔
    ∃ t, Document t (Symbol.ofString s) ∧ t.json? maxDepth = some j := Json.read_eq_ok_iff

end RemoteSettings
