import RemoteSettings.Proofs.Json.Parsing

/-!
# JSON that means a value is text

What is passed over may hold stray bytes: they may stand in strings, as the grammar does not look at
what a string is made of.  But such a string makes no characters, and so nothing that holds it means
a value.

## Main definitions

* `Grammar.Characters` — no stray bytes stand between two places of a text.

## Main results

* `Grammar.Spells.characters` — no stray bytes stand in a phrase that means something.
* `Grammar.exists_chars_of_json?` — **a document that means a value is a text.**
-/

namespace RemoteSettings.Grammar

/-- Only characters stand between two places of a text. -/
def Characters (s rest : List Symbol) : Prop := ∃ cs : List Char, s = cs.map .char ++ rest

theorem Characters.refl (s : List Symbol) : Characters s s := ⟨[], rfl⟩

theorem Characters.cons {c : Char} {s rest : List Symbol} (h : Characters s rest) :
    Characters (.char c :: s) rest := by
  obtain ⟨cs, rfl⟩ := h
  exact ⟨c :: cs, rfl⟩

theorem Characters.trans {s t rest : List Symbol} (h : Characters s t) (h' : Characters t rest) :
    Characters s rest := by
  obtain ⟨cs, rfl⟩ := h
  obtain ⟨cs', rfl⟩ := h'
  exact ⟨cs ++ cs', by rw [List.map_append, List.append_assoc]⟩

/-- What stands behind one more character. -/
theorem Characters.step {c : Char} {s t rest : List Symbol} (h : Characters s (.char c :: t))
    (h' : Characters t rest) : Characters s rest := h.trans h'.cons

theorem Blanks.characters {s rest : List Symbol} (h : Blanks s rest) : Characters s rest := by
  obtain ⟨blanks, hblank, rfl⟩ := h
  induction blanks with
  | nil => exact .refl rest
  | cons x blanks ih =>
    obtain ⟨hx, hblanks⟩ := List.forall_mem_cons.mp hblank
    cases x with
    | char c => exact (ih hblanks).cons
    | stray n => cases hx

theorem Run.characters {ds : List Nat} {s rest : List Symbol} (h : Run ds s rest) :
    Characters s rest := by
  induction h with
  | nil s => exact .refl s
  | @cons x _ _ _ _ hdigit _ ih =>
    cases x with
    | char c => exact ih.cons
    | stray n => cases hdigit

theorem Fraction.characters {ds : List Nat} {s rest : List Symbol} (h : Fraction ds s rest) :
    Characters s rest := by
  cases h with
  | absent s => exact .refl s
  | present _ hrun => exact hrun.characters.cons

theorem Exponent.characters {e : Option (Bool × List Nat)} {s rest : List Symbol}
    (h : Exponent e s rest) : Characters s rest := by
  cases h with
  | absent s => exact .refl s
  | present hmark hsign _ hrun =>
    have hdigits := hrun.characters
    rcases isExponentMark_iff.mp hmark with rfl | rfl <;> cases hsign
    · exact hdigits.cons
    · exact hdigits.cons.cons
    · exact hdigits.cons.cons
    · exact hdigits.cons
    · exact hdigits.cons.cons
    · exact hdigits.cons.cons

theorem Magnitude.characters {l : Literal} {s rest : List Symbol} (h : Magnitude l s rest) :
    Characters s rest := by
  obtain ⟨t, u, hrun, hfraction, hexponent⟩ := h.exists_parts
  exact hrun.characters.trans (hfraction.characters.trans hexponent.characters)

theorem stray_notMem_of_chars? {ps : List Piece} {cs : List Char} (h : chars? ps = some cs) :
    .stray ∉ ps := by
  fun_induction chars? ps generalizing cs with
  | case1 => exact List.not_mem_nil
  | case2 c ps ih =>
    obtain ⟨cs, hcs, -⟩ := Option.map_eq_some_iff.mp h
    exact List.not_mem_cons_of_ne_of_not_mem (by simp) (ih hcs)
  | case3 => cases h
  | case4 => cases h
  | case5 n _ _ m ps _ ih =>
    obtain ⟨cs, hcs, -⟩ := Option.map_eq_some_iff.mp h
    refine List.not_mem_cons_of_ne_of_not_mem (by simp) ?_
    exact List.not_mem_cons_of_ne_of_not_mem (by simp) (ih hcs)
  | case6 => cases h
  | case7 => cases h
  | case8 n ps _ _ ih =>
    obtain ⟨cs, hcs, -⟩ := Option.map_eq_some_iff.mp h
    exact List.not_mem_cons_of_ne_of_not_mem (by simp) (ih hcs)

theorem Content.characters {ps : List Piece} {s rest : List Symbol} (h : Content ps s rest)
    (hps : .stray ∉ ps) : Characters s rest := by
  induction h with
  | close rest => exact (Characters.refl rest).cons
  | char _ _ _ _ ih => exact (ih (List.not_mem_of_not_mem_cons hps)).cons
  | stray n _ _ => exact absurd List.mem_cons_self hps
  | escape _ _ ih => exact (ih (List.not_mem_of_not_mem_cons hps)).cons.cons
  | unit _ _ ih => exact (ih (List.not_mem_of_not_mem_cons hps)).cons.cons.cons.cons.cons.cons

/-- A phrase means something if its values may nest deep enough. -/
def Phrase.Means : Phrase → Prop
  | .value t => ∃ depth j, t.json? depth = some j
  | .items ts => ∃ depth js, jsons? depth ts = some js
  | .members ms => ∃ depth es, members? depth ms = some es

section Means

variable {t : Tree} {ts : List Tree} {ps : List Piece} {ms : List (List Piece × Tree)}

theorem Phrase.Means.of_string (h : (Phrase.value (.string ps)).Means) : .stray ∉ ps := by
  obtain ⟨depth, j, hj⟩ := h
  rw [Tree.json?] at hj
  obtain ⟨cs, hcs, -⟩ := Option.map_eq_some_iff.mp hj
  exact stray_notMem_of_chars? hcs

theorem Phrase.Means.of_array (h : (Phrase.value (.array ts)).Means) : (Phrase.items ts).Means := by
  obtain ⟨depth, j, hj⟩ := h
  cases depth with
  | zero =>
    rw [Tree.json?] at hj
    cases hj
  | succ depth =>
    rw [Tree.json?] at hj
    obtain ⟨js, hjs, -⟩ := Option.map_eq_some_iff.mp hj
    exact ⟨depth, js, hjs⟩

theorem Phrase.Means.of_object (h : (Phrase.value (.object ms)).Means) :
    (Phrase.members ms).Means := by
  obtain ⟨depth, j, hj⟩ := h
  cases depth with
  | zero =>
    rw [Tree.json?] at hj
    cases hj
  | succ depth =>
    rw [Tree.json?] at hj
    obtain ⟨es, hes, -⟩ := Option.map_eq_some_iff.mp hj
    exact ⟨depth, es, hes⟩

theorem Phrase.Means.of_items (h : (Phrase.items (t :: ts)).Means) :
    (Phrase.value t).Means ∧ (Phrase.items ts).Means := by
  obtain ⟨depth, js, hjs⟩ := h
  rw [jsons?] at hjs
  obtain ⟨j, hj, hjs⟩ := Option.bind_eq_some_iff.mp hjs
  obtain ⟨more, hmore, -⟩ := Option.bind_eq_some_iff.mp hjs
  exact ⟨⟨depth, j, hj⟩, depth, more, hmore⟩

theorem Phrase.Means.of_members (h : (Phrase.members ((ps, t) :: ms)).Means) :
    .stray ∉ ps ∧ (Phrase.value t).Means ∧ (Phrase.members ms).Means := by
  obtain ⟨depth, es, hes⟩ := h
  rw [members?] at hes
  obtain ⟨key, hkey, hes⟩ := Option.bind_eq_some_iff.mp hes
  obtain ⟨j, hj, hes⟩ := Option.bind_eq_some_iff.mp hes
  obtain ⟨more, hmore, -⟩ := Option.bind_eq_some_iff.mp hes
  exact ⟨stray_notMem_of_chars? hkey, ⟨depth, j, hj⟩, depth, more, hmore⟩

end Means

/-- **No stray bytes stand in a phrase that means something.** -/
theorem Spells.characters {p : Phrase} {s rest : List Symbol} (h : Spells p s rest)
    (hp : p.Means) : Characters s rest := by
  induction h with
  | nullWord rest => exact ⟨['n', 'u', 'l', 'l'], rfl⟩
  | trueWord rest => exact ⟨['t', 'r', 'u', 'e'], rfl⟩
  | falseWord rest => exact ⟨['f', 'a', 'l', 's', 'e'], rfl⟩
  | string hcontent => exact (hcontent.characters hp.of_string).cons
  | negative _ hmagnitude => exact hmagnitude.characters.cons
  | positive _ hmagnitude => exact hmagnitude.characters
  | emptyArray hclose => exact (hclose.characters.step (.refl _)).cons
  | array _ ih => exact (ih hp.of_array).cons
  | emptyObject hclose => exact (hclose.characters.step (.refl _)).cons
  | object hquote _ ih => exact (hquote.characters.step (ih hp.of_object)).cons
  | lastItem hblanks _ hclose ih =>
    exact hblanks.characters.trans ((ih hp.of_items.1).trans (hclose.characters.step (.refl _)))
  | item hblanks _ hcomma _ ih ihmore =>
    obtain ⟨hvalue, hmore⟩ := hp.of_items
    exact hblanks.characters.trans
      ((ih hvalue).trans (hcomma.characters.step (ihmore hmore)))
  | lastMember hkey hcolon hblanks _ hclose ih =>
    obtain ⟨hps, hvalue, -⟩ := hp.of_members
    have hrest := (ih hvalue).trans (hclose.characters.step (.refl _))
    exact (hkey.characters hps).trans (hcolon.characters.step (hblanks.characters.trans hrest))
  | member hkey hcolon hblanks _ hcomma hquote _ ih ihmore =>
    obtain ⟨hps, hvalue, hmore⟩ := hp.of_members
    have hrest := (ih hvalue).trans
      (hcomma.characters.step (hquote.characters.step (ihmore hmore)))
    exact (hkey.characters hps).trans (hcolon.characters.step (hblanks.characters.trans hrest))

/-- **A document that means a value is a text.** -/
theorem exists_chars_of_json? {t : Tree} {s : List Symbol} (h : Document t s) {depth : Nat}
    {j : Json} (hj : t.json? depth = some j) : ∃ cs : List Char, s = cs.map .char := by
  obtain ⟨s₁, rest, hfront, ht, hback⟩ := h
  obtain ⟨cs, rfl⟩ := hfront.characters.trans
    ((ht.characters ⟨depth, j, hj⟩).trans hback.characters)
  exact ⟨cs, List.append_nil _⟩

end RemoteSettings.Grammar
