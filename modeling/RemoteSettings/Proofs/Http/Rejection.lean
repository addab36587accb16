import RemoteSettings.Http.Body
import RemoteSettings.Proofs.Json.Parsing

/-!
# What is read as a rejection

A rejection is read from a text in one go, with what is not asked for passed over.  So a text may be
a rejection although it means no JSON value: what is passed over may nest to any depth and hold
numbers of any size.  Which texts are rejections is said here by their trees, without regard to the
order in which anything is read.

## Main definitions

* `Grammar.Tree.text?`, `Grammar.named?`, `Grammar.field?` — texts, names and fields of trees.
* `Rejection.ofTree?` — the rejection that a tree is.

## Main results

* `Rejection.Draft.fill?_eq` — members that are read one after another are fields that are given at
  most once.
* `Rejection.ofBody?_eq_some_iff` — **a text is a rejection exactly if it is the text of one.**
-/

namespace RemoteSettings

namespace Grammar

/-- The text that a tree is, if it is a string that makes characters. -/
def Tree.text? : Tree → Option String
  | .string ps => (chars? ps).map String.ofList
  | _ => none

/-- Members with their names, if all names make characters. -/
def named? : List (List Piece × Tree) → Option (List (String × Tree))
  | [] => some []
  | (ps, t) :: ms => do
    let key ← chars? ps
    let named ← named? ms
    some ((String.ofList key, t) :: named)

/-- What is read of a field that may be missing and must not be given twice. -/
def field? {α : Type} (read : Tree → Option α) (missing : α) (name : String)
    (ms : List (String × Tree)) : Option α :=
  match ms.filter (·.1 == name) with
  | [] => some missing
  | [m] => read m.2
  | _ => none

end Grammar

open Grammar

namespace Rejection

/-- The data that a tree is; null is no data. -/
def data? (t : Tree) : Option (Option Json) :=
  (t.json? dataDepth).map fun
    | .null => none
    | j => some j

/-- The rejection that fields make; fields of other names do not count. -/
def ofFields? (ms : List (String × Tree)) : Option Rejection := do
  let code ← field? Tree.text? "" "code" ms
  let message ← field? Tree.text? "" "message" ms
  let data ← field? data? none "data" ms
  some ⟨code, message, data⟩

/-- The rejection that a tree is: an object, or an array of its fields in their order, of which the
last ones may be missing. -/
def ofTree? : Tree → Option Rejection
  | .object ms => (named? ms).bind ofFields?
  | .array ts =>
    if ts.length ≤ record.fields.length then ofFields? (record.fields.zip ts) else none
  | _ => none

/-! ### Drafts -/

namespace Draft

/-- The draft with a field that it does not have yet. -/
def put? (d : Draft) (name : String) (t : Tree) : Option Draft :=
  if name = "code" then
    if d.code.isSome then none else t.text?.map fun text => { d with code := some text }
  else if name = "message" then
    if d.message.isSome then none else t.text?.map fun text => { d with message := some text }
  else if name = "data" then
    if d.data.isSome then none else (t.json? dataDepth).map fun j => { d with data := some j }
  else some d

/-- The draft with fields that are put one after another. -/
def fill? (d : Draft) : List (String × Tree) → Option Draft
  | [] => some d
  | (name, t) :: ms => (d.put? name t).bind fun d => d.fill? ms

end Draft

/-- What there is of a field after members, given what there was before. -/
def taken? {α : Type} (read : Tree → Option α) (name : String) :
    Option α → List (String × Tree) → Option (Option α)
  | prior, [] => some prior
  | prior, (key, t) :: ms =>
    if key = name then
      if prior.isSome then none else (read t).bind fun a => taken? read name (some a) ms
    else taken? read name prior ms

section Taken

variable {α β : Type} (read : Tree → Option α) (name : String) (ms : List (String × Tree))

theorem taken?_some (a : α) : taken? read name (some a) ms
    = if ms.filter (·.1 == name) = [] then some (some a) else none := by
  induction ms with
  | nil => rfl
  | cons m ms ih =>
    rw [taken?]
    by_cases hm : m.1 = name
    · simp [hm]
    · rw [if_neg hm, ih, List.filter_cons_of_neg (by simpa using hm)]

/-- A field is given at most once. -/
theorem field?_eq (f : α → β) (missing : β) :
    field? (fun t => (read t).map f) missing name ms
      = (taken? read name none ms).map fun o => o.elim missing f := by
  induction ms with
  | nil => rfl
  | cons m ms ih =>
    rw [taken?]
    by_cases hm : m.1 = name
    · rw [field?, List.filter_cons_of_pos (by simpa using hm), if_pos hm]
      simp only [taken?_some, Option.isSome_none]
      generalize ms.filter (·.1 == name) = others
      cases hread : read m.2 <;> cases others <;> simp [hread]
    · rw [if_neg hm, ← ih, field?, field?, List.filter_cons_of_neg (by simpa using hm)]

end Taken

/-- **Members that are read one after another are fields that are given at most once.** -/
theorem Draft.fill?_eq (d : Draft) (ms : List (String × Tree)) : d.fill? ms = (do
    let code ← taken? Tree.text? "code" d.code ms
    let message ← taken? Tree.text? "message" d.message ms
    let data ← taken? (Tree.json? dataDepth) "data" d.data ms
    some ⟨code, message, data⟩) := by
  induction ms generalizing d with
  | nil => rfl
  | cons m ms ih =>
    obtain ⟨name, t⟩ := m
    -- A field that is not read makes no draft, whichever of the others are read before it.
    by_cases hcode : name = "code"
    · subst hcode
      simp only [fill?, put?, taken?, reduceIte, String.reduceEq]
      cases d.code with
      | some c => rfl
      | none =>
        cases t.text? with
        | none => rfl
        | some text => exact ih _
    · by_cases hmessage : name = "message"
      · subst hmessage
        simp only [fill?, put?, taken?, reduceIte, String.reduceEq]
        cases d.message with
        | some c => cases taken? Tree.text? "code" d.code ms <;> rfl
        | none =>
          cases t.text? with
          | none => cases taken? Tree.text? "code" d.code ms <;> rfl
          | some text => exact ih _
      · by_cases hdata : name = "data"
        · subst hdata
          simp only [fill?, put?, taken?, reduceIte, String.reduceEq]
          cases d.data with
          | some c =>
            cases taken? Tree.text? "code" d.code ms <;>
              cases taken? Tree.text? "message" d.message ms <;> rfl
          | none =>
            cases t.json? dataDepth with
            | none =>
              cases taken? Tree.text? "code" d.code ms <;>
                cases taken? Tree.text? "message" d.message ms <;> rfl
            | some j => exact ih _
        · simp only [fill?, put?, taken?, hcode, hmessage, hdata, reduceIte]
          exact ih d

/-- A draft that was blank is finished as the rejection that the fields make. -/
theorem Draft.finish_fill? (ms : List (String × Tree)) :
    (({} : Draft).fill? ms).map Draft.finish = ofFields? ms := by
  have htext : ∀ name, field? Tree.text? "" name ms
      = (taken? Tree.text? name none ms).map (·.getD "") := by
    intro name
    have hfield := field?_eq Tree.text? name ms id ""
    simp only [Option.map_id_fun, id_eq] at hfield
    rw [hfield]
    refine congrArg (Option.map · _) (funext fun o => ?_)
    cases o <;> rfl
  have hdata : field? data? none "data" ms
      = (taken? (Tree.json? dataDepth) "data" none ms).map
          (·.bind fun | .null => none | j => some j) := by
    refine (field?_eq (Tree.json? dataDepth) "data" ms _ none).trans ?_
    refine congrArg (Option.map · _) (funext fun o => ?_)
    cases o <;> rfl
  rw [fill?_eq, ofFields?, htext, htext, hdata]
  cases taken? Tree.text? "code" none ms with
  | none => rfl
  | some code =>
    cases taken? Tree.text? "message" none ms with
    | none => rfl
    | some message => cases taken? (Tree.json? dataDepth) "data" none ms <;> rfl

/-! ### What is spelled is read as what it is -/

section Spelled

variable {s s₁ rest : List Symbol} {t : Tree}

theorem textNext_eq (h : Spells (.value t) s₁ rest) (hblanks : Blanks s s₁) :
    textNext s = t.text?.map (·, rest) := by
  cases h with
  | string hcontent =>
    have hs := hblanks.skipBlanks_cons (x := .char '"') (by decide)
    simp only [textNext, hs, hcontent.toOption_string, Tree.text?, Option.map_map]
    rfl
  | positive hsign hmagnitude =>
    obtain ⟨x, s', d, rfl, hdigit⟩ := hmagnitude.exists_digit
    have hs := hblanks.skipBlanks_cons (isBlank_of_digit hdigit)
    simp only [textNext, hs, Tree.text?, Option.map_none]
    split
    · next heq =>
      cases heq
      cases hdigit
    · rfl
  | _ =>
    simp only [textNext, hblanks.skipBlanks_eq]
    rfl

/-- The field that comes next is put into the draft. -/
theorem Draft.field_eq (h : Spells (.value t) s₁ rest) (hblanks : Blanks s s₁)
    (hrest : Stops rest) (d : Draft) (name : String) :
    d.field name s = (d.put? name t).map (·, rest) := by
  have hlength := hblanks.length_le
  have hskim : Skim.value (2 * s.length + 1) s = some rest := by
    rw [skim_value_blanks hblanks]
    exact (h.reads hrest _ (by omega)).1
  unfold field put?
  split
  · simp only [reduceIte, textNext_eq h hblanks]
    cases d.code <;> cases t.text? <;> rfl
  · simp only [reduceIte, String.reduceEq, textNext_eq h hblanks]
    cases d.message <;> cases t.text? <;> rfl
  · simp only [reduceIte, String.reduceEq, dataNext, h.value_eq hblanks hrest]
    cases d.data <;> cases t.json? dataDepth <;> rfl
  · next hcode hmessage hdata =>
    rw [if_neg hcode, if_neg hmessage, if_neg hdata, hskim]
    rfl

end Spelled

/-- Items are put into the fields of given names; there must be names enough. -/
theorem items_eq {ts : List Tree} {s rest : List Symbol} (h : Spells (.items ts) s rest)
    (d : Draft) (names : List String) : items names d s
      = if ts.length ≤ names.length then (d.fill? (names.zip ts)).map (·, rest) else none := by
  induction ts generalizing s d names with
  | nil => cases h
  | cons t ts ih =>
    cases names with
    | nil => rfl
    | cons name names =>
      rw [items, List.zip_cons_cons, Draft.fill?]
      cases h with
      | lastItem hblanks hvalue hclose =>
        have hstops := hclose.stops (stops_cons (by decide) (by decide) (by decide))
        have hs := hclose.skipBlanks_cons (by decide)
        rw [Draft.field_eq hvalue hblanks hstops]
        cases d.put? name t with
        | none => simp
        | some d' => simp [hs, Draft.fill?]
      | item hblanks hvalue hcomma hmore =>
        have hstops := hcomma.stops (stops_cons (by decide) (by decide) (by decide))
        have hs := hcomma.skipBlanks_cons (by decide)
        rw [Draft.field_eq hvalue hblanks hstops]
        cases d.put? name t with
        | none => simp
        | some d' => simp [hs, ih hmore]

/-- Members are put into the fields of their names, if all names make characters. -/
theorem members_eq {ms : List (List Piece × Tree)} {s rest : List Symbol}
    (h : Spells (.members ms) s rest) (d : Draft) {fuel : Nat} (hfuel : s.length ≤ fuel) :
    members fuel d s = ((named? ms).bind d.fill?).map (·, rest) := by
  induction ms generalizing s d fuel with
  | nil => cases h
  | cons m ms ih =>
    obtain ⟨ps, t⟩ := m
    have hlt := h.length_lt
    obtain ⟨fuel, rfl⟩ := Nat.exists_eq_add_one_of_ne_zero (show fuel ≠ 0 by omega)
    rw [members, named?]
    cases h with
    | lastMember hkey hcolon hblanks hvalue hclose =>
      have hstops := hclose.stops (stops_cons (by decide) (by decide) (by decide))
      have hs := hclose.skipBlanks_cons (by decide)
      rw [hkey.toOption_string]
      cases chars? ps with
      | none => rfl
      | some key =>
        simp only [named?, Option.map_some, Option.bind_eq_bind, Option.bind_some, Skim.colon,
          colon_eq hcolon, Except.toOption, Draft.field_eq hvalue hblanks hstops, Draft.fill?]
        cases d.put? (String.ofList key) t with
        | none => rfl
        | some d' => simp only [Option.map_some, Option.bind_some, hs]
    | @member _ _ _ _ _ _ _ _ _ s₆ _ hkey hcolon hblanks hvalue hcomma hquote hmore =>
      have hstops := hcomma.stops (stops_cons (by decide) (by decide) (by decide))
      have hs := hcomma.skipBlanks_cons (by decide)
      have hs' := hquote.skipBlanks_cons (by decide)
      have hfuel' : s₆.length ≤ fuel := by
        have := hkey.length_lt
        have := hcolon.length_le
        have := hblanks.length_le
        have := hvalue.length_lt
        have := hcomma.length_le
        have := hquote.length_le
        simp only [List.length_cons] at *
        omega
      rw [hkey.toOption_string]
      cases chars? ps with
      | none => rfl
      | some key =>
        simp only [Option.map_some, Option.bind_eq_bind, Option.bind_some, Skim.colon,
          colon_eq hcolon, Except.toOption, Draft.field_eq hvalue hblanks hstops]
        cases hput : d.put? (String.ofList key) t with
        | none => cases named? ms <;> simp [Draft.fill?, hput]
        | some d' =>
          simp only [Option.map_some, Option.bind_some, hs, hs', ih hmore d' hfuel']
          cases named? ms <;> simp [Draft.fill?, hput]

/-- A text that begins with neither a brace nor a bracket is no rejection. -/
theorem ofBody?_eq_none {s s' : List Symbol} {x : Symbol} (hs : Reader.skipBlanks s = x :: s')
    (hbrace : x ≠ .char '{') (hbracket : x ≠ .char '[') : ofBody? s = none := by
  have hread : read s = none := by
    rw [read, hs]
    split
    · next heq => exact absurd (List.cons.inj heq).1 hbrace
    · next heq => exact absurd (List.cons.inj heq).1 hbracket
    · rfl
  rw [ofBody?, hread]
  rfl

/-- The text of a tree is read as the rejection that the tree is. -/
theorem ofBody?_eq {t : Tree} {s : List Symbol} (h : Document t s) : ofBody? s = ofTree? t := by
  obtain ⟨s₁, rest, hfront, ht, hback⟩ := h
  have hend : Reader.skipBlanks rest = [] := blanks_nil_iff.mp hback
  have hfinish : ∀ o : Option Draft, read s = o.map (·, rest) → ofBody? s = o.map Draft.finish := by
    intro o ho
    rw [ofBody?, ho]
    cases o <;> simp [hend]
  cases ht with
  | emptyObject hclose =>
    have hs := hfront.skipBlanks_cons (by decide)
    have hs' := hclose.skipBlanks_cons (by decide)
    exact hfinish (some {}) (by simp only [read, hs, hs', Option.map_some])
  | @object ms _ s₂ _ hquote hmembers =>
    have hs := hfront.skipBlanks_cons (by decide)
    have hs' := hquote.skipBlanks_cons (by decide)
    rw [hfinish ((named? ms).bind ({} : Draft).fill?), ofTree?, Option.map_bind]
    · exact congrArg (Option.bind _) (funext Draft.finish_fill?)
    · simp only [read, hs, hs', members_eq hmembers _ (Nat.le_refl _)]
  | emptyArray hclose =>
    have hs := hfront.skipBlanks_cons (by decide)
    have hs' := hclose.skipBlanks_cons (by decide)
    exact hfinish (some {}) (by simp only [read, hs, hs', Option.map_some])
  | @array ts s₂ _ hitems =>
    have hs := hfront.skipBlanks_cons (by decide)
    obtain ⟨x, s', hs', hx⟩ := hitems.exists_item
    have hread : read s = items record.fields {} (x :: s') := by
      simp only [read, hs, hs']
      split
      · next heq => exact absurd (List.cons.inj heq).1 hx
      · rfl
    rw [items_eq (hs' ▸ hitems.skipBlanks)] at hread
    rw [hfinish (if ts.length ≤ record.fields.length
      then ({} : Draft).fill? (record.fields.zip ts) else none), ofTree?, ← Draft.finish_fill?]
    · split <;> rfl
    · rw [hread]
      split <;> rfl
  | positive hsign hmagnitude =>
    obtain ⟨x, s', d, rfl, hdigit⟩ := hmagnitude.exists_digit
    refine ofBody?_eq_none (hfront.skipBlanks_cons (isBlank_of_digit hdigit)) ?_ ?_ <;>
      · rintro rfl
        cases hdigit
  | _ => exact ofBody?_eq_none (hfront.skipBlanks_cons (by decide)) (by decide) (by decide)

/-! ### What is read is spelled -/

theorem Draft.exists_spells {d d' : Draft} {name : String} {s rest : List Symbol}
    (h : d.field name s = some (d', rest)) :
    ∃ t, Spells (.value t) (Reader.skipBlanks s) rest := by
  have htext : ∀ {text : String}, textNext s = some (text, rest) →
      ∃ t, Spells (.value t) (Reader.skipBlanks s) rest := by
    intro text htext
    unfold textNext at htext
    split at htext
    · next hs =>
      obtain ⟨ps, hps⟩ := content_of_skim (skim_of_string (toOption_eq_some_iff.mp htext))
      rw [hs]
      exact ⟨_, .string hps⟩
    · cases htext
  unfold field at h
  split at h
  · split at h
    · cases h
    · obtain ⟨⟨text, u⟩, hread, h⟩ := Option.bind_eq_some_iff.mp h
      cases h
      exact htext hread
  · split at h
    · cases h
    · obtain ⟨⟨text, u⟩, hread, h⟩ := Option.bind_eq_some_iff.mp h
      cases h
      exact htext hread
  · split at h
    · cases h
    · obtain ⟨⟨j, u⟩, hread, h⟩ := Option.bind_eq_some_iff.mp h
      cases h
      exact exists_spells_of_value (toOption_eq_some_iff.mp hread)
  · obtain ⟨u, hskim, h⟩ := Option.bind_eq_some_iff.mp h
    cases h
    exact (sound _).value _ _ hskim

theorem exists_spells_items {names : List String} {d d' : Draft} {s rest : List Symbol}
    (h : items names d s = some (d', rest)) : ∃ ts, Spells (.items ts) s rest := by
  induction names generalizing d s with
  | nil => cases h
  | cons name names ih =>
    obtain ⟨⟨d₁, s₁⟩, hfield, h⟩ := Option.bind_eq_some_iff.mp h
    obtain ⟨t, ht⟩ := Draft.exists_spells hfield
    dsimp only at h
    split at h
    · next hclose =>
      cases h
      exact ⟨_, .lastItem (blanks_skipBlanks s) ht (blanks_of_skipBlanks_eq hclose)⟩
    · next hcomma =>
      obtain ⟨ts, hmore⟩ := ih h
      exact ⟨_, .item (blanks_skipBlanks s) ht (blanks_of_skipBlanks_eq hcomma) hmore⟩
    · cases h

theorem exists_spells_members {fuel : Nat} {d d' : Draft} {s rest : List Symbol}
    (h : members fuel d s = some (d', rest)) : ∃ ms, Spells (.members ms) s rest := by
  induction fuel generalizing d s with
  | zero => cases h
  | succ fuel ih =>
    obtain ⟨⟨key, s₁⟩, hkey, h⟩ := Option.bind_eq_some_iff.mp h
    obtain ⟨s₂, hcolon, h⟩ := Option.bind_eq_some_iff.mp h
    obtain ⟨⟨d₁, s₃⟩, hfield, h⟩ := Option.bind_eq_some_iff.mp h
    obtain ⟨ps, hps⟩ := content_of_skim (skim_of_string (toOption_eq_some_iff.mp hkey))
    have hcolon := blanks_of_colon (toOption_eq_some_iff.mp hcolon)
    obtain ⟨t, ht⟩ := Draft.exists_spells hfield
    dsimp only at h
    split at h
    · next hclose =>
      cases h
      exact ⟨_, .lastMember hps hcolon (blanks_skipBlanks s₂) ht (blanks_of_skipBlanks_eq hclose)⟩
    · next hcomma =>
      split at h
      · next hquote =>
        obtain ⟨ms, hmore⟩ := ih h
        exact ⟨_, .member hps hcolon (blanks_skipBlanks s₂) ht (blanks_of_skipBlanks_eq hcomma)
          (blanks_of_skipBlanks_eq hquote) hmore⟩
      · cases h
    · cases h

theorem exists_document {s : List Symbol} {r : Rejection} (h : ofBody? s = some r) :
    ∃ t, Document t s := by
  obtain ⟨⟨d, rest⟩, hread, h⟩ := Option.bind_eq_some_iff.mp h
  have hrest : Blanks rest [] := by
    dsimp only at h
    split at h
    · next hempty => exact blanks_nil_iff.mpr (List.isEmpty_iff.mp hempty)
    · cases h
  have hfront := blanks_skipBlanks s
  suffices ∃ t, Spells (.value t) (Reader.skipBlanks s) rest by
    obtain ⟨t, ht⟩ := this
    exact ⟨t, _, rest, hfront, ht, hrest⟩
  unfold read at hread
  split at hread
  · next hs =>
    rw [hs]
    split at hread
    · next hclose =>
      cases hread
      exact ⟨_, .emptyObject (blanks_of_skipBlanks_eq hclose)⟩
    · next hquote =>
      obtain ⟨ms, hms⟩ := exists_spells_members hread
      exact ⟨_, .object (blanks_of_skipBlanks_eq hquote) hms⟩
    · cases hread
  · next s₂ hs =>
    rw [hs]
    split at hread
    · next hclose =>
      cases hread
      exact ⟨_, .emptyArray (blanks_of_skipBlanks_eq hclose)⟩
    · obtain ⟨ts, hts⟩ := exists_spells_items hread
      exact ⟨_, .array (hts.of_blanks (blanks_skipBlanks s₂))⟩
  · cases hread

/-- **A text is a rejection exactly if it is the text of a tree that is one.** -/
theorem ofBody?_eq_some_iff {s : List Symbol} {r : Rejection} :
    ofBody? s = some r ↔ ∃ t, Document t s ∧ ofTree? t = some r := by
  constructor
  · intro h
    obtain ⟨t, ht⟩ := exists_document h
    exact ⟨t, ht, (ofBody?_eq ht).symm.trans h⟩
  · rintro ⟨t, ht, hr⟩
    exact (ofBody?_eq ht).trans hr

end Rejection

end RemoteSettings
