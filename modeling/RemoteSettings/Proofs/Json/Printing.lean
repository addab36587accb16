import RemoteSettings.Json.Printer
import RemoteSettings.Proofs.Json.Parsing
import RemoteSettings.Proofs.Number.Digits
import RemoteSettings.Proofs.Reading

/-!
# JSON that is written is read again

The text of a value is the text of a tree that means the value: characters are written as pieces of
a string, whole numbers as their digits, and commas stand between the items and the members.  Only
of binary numbers this is not shown but asked for, as their digits are found by search.

## Main definitions

* `Json.depth`, `Json.reals` — how deep a value nests, and the binary numbers in it.
* `Grammar.Tells` — a tree is that of a value's text, and means the value.

## Main results

* `Grammar.Tree.depth_le_of_json?` — a value that is read does not nest deeper than is allowed.
* `Grammar.exists_tells` — the text of a value is that of a tree that means it.
* `Json.parse_text` — **JSON that is written is read again.**
-/

namespace RemoteSettings

namespace Keyed

variable {κ α : Type} [DecidableEq κ]

theorem put_of_notMem {k : κ} {m : Keyed κ α} (h : k ∉ m.keys) (a : α) :
    m.put k a = m ++ [(k, a)] := by
  induction m with
  | nil => rfl
  | cons e m ih =>
    rw [keys_cons, List.mem_cons, not_or] at h
    rw [put, if_neg (Ne.symm h.1), ih h.2, List.cons_append]

/-- Where no key comes again, all pairs are kept as they are. -/
theorem ofPairs_eq_self {pairs : List (κ × α)} (h : (keys pairs).Nodup) :
    ofPairs pairs = pairs := by
  have hfold : ∀ (pairs : List (κ × α)) (m : Keyed κ α), (keys (m ++ pairs)).Nodup →
      pairs.foldl (fun m p => m.put p.1 p.2) m = m ++ pairs := by
    intro pairs
    induction pairs with
    | nil => exact fun m _ => (List.append_nil m).symm
    | cons e pairs ih =>
      intro m hm
      have hnew : e.1 ∉ keys m := by
        rw [keys, List.map_append, List.nodup_append'] at hm
        exact fun hmem => hm.2.2 hmem List.mem_cons_self
      rw [List.foldl_cons, put_of_notMem hnew, ih, List.append_assoc]
      · rfl
      · rwa [List.append_assoc]
  exact hfold pairs [] h

end Keyed

namespace Json

/-! ### How deep values nest, and the binary numbers in them -/

mutual

/-- How deep arrays and objects nest. -/
def depth : Json → Nat
  | .array items => depthAll items + 1
  | .object fields => depthFields fields + 1
  | _ => 0

/-- How deep the deepest item nests. -/
def depthAll : List Json → Nat
  | [] => 0
  | j :: rest => max (depth j) (depthAll rest)

/-- How deep the deepest field nests. -/
def depthFields : List (String × Json) → Nat
  | [] => 0
  | (_, j) :: rest => max (depth j) (depthFields rest)

end

theorem depthAll_le_iff {items : List Json} {n : Nat} :
    depthAll items ≤ n ↔ ∀ j ∈ items, j.depth ≤ n := by
  induction items with
  | nil => simp [depthAll]
  | cons j items ih => rw [depthAll, Nat.max_le, ih, List.forall_mem_cons]

theorem depthFields_le_iff {fields : List (String × Json)} {n : Nat} :
    depthFields fields ≤ n ↔ ∀ e ∈ fields, e.2.depth ≤ n := by
  induction fields with
  | nil => simp [depthFields]
  | cons e fields ih => rw [depthFields, Nat.max_le, ih, List.forall_mem_cons]

mutual

/-- The binary numbers in a value. -/
def reals : Json → List Binary64
  | .number (.real x) => [x]
  | .array items => realsAll items
  | .object fields => realsFields fields
  | _ => []

/-- The binary numbers in items. -/
def realsAll : List Json → List Binary64
  | [] => []
  | j :: rest => reals j ++ realsAll rest

/-- The binary numbers in fields. -/
def realsFields : List (String × Json) → List Binary64
  | [] => []
  | (_, j) :: rest => reals j ++ realsFields rest

end

theorem mem_realsAll {items : List Json} {j : Json} (hj : j ∈ items) {x : Binary64}
    (hx : x ∈ j.reals) : x ∈ realsAll items := by
  induction items with
  | nil => cases hj
  | cons i items ih =>
    rw [realsAll, List.mem_append]
    rcases List.mem_cons.mp hj with rfl | hmem
    · exact Or.inl hx
    · exact Or.inr (ih hmem)

theorem mem_realsFields {fields : List (String × Json)} {e : String × Json} (he : e ∈ fields)
    {x : Binary64} (hx : x ∈ e.2.reals) : x ∈ realsFields fields := by
  induction fields with
  | nil => cases he
  | cons f fields ih =>
    rw [realsFields, List.mem_append]
    rcases List.mem_cons.mp he with rfl | hmem
    · exact Or.inl hx
    · exact Or.inr (ih hmem)

end Json

namespace Grammar

/-! ### What is meant does not nest too deep -/

theorem depth_le_of_jsons? {depth : Nat} (h : ∀ t j, Tree.json? depth t = some j → j.depth ≤ depth)
    {ts : List Tree} {js : List Json} (hjs : jsons? depth ts = some js) :
    ∀ j ∈ js, j.depth ≤ depth := by
  induction ts generalizing js with
  | nil =>
    rw [jsons?] at hjs
    cases hjs
    exact List.forall_mem_nil _
  | cons t ts ih =>
    rw [jsons?] at hjs
    obtain ⟨j, hj, hjs⟩ := Option.bind_eq_some_iff.mp hjs
    obtain ⟨more, hmore, hjs⟩ := Option.bind_eq_some_iff.mp hjs
    cases hjs
    exact List.forall_mem_cons.mpr ⟨h t j hj, ih hmore⟩

theorem depth_le_of_members? {depth : Nat}
    (h : ∀ t j, Tree.json? depth t = some j → j.depth ≤ depth) {ms : List (List Piece × Tree)}
    {es : List (String × Json)} (hes : members? depth ms = some es) :
    ∀ e ∈ es, e.2.depth ≤ depth := by
  induction ms generalizing es with
  | nil =>
    rw [members?] at hes
    cases hes
    exact List.forall_mem_nil _
  | cons m ms ih =>
    rw [members?] at hes
    obtain ⟨key, -, hes⟩ := Option.bind_eq_some_iff.mp hes
    obtain ⟨j, hj, hes⟩ := Option.bind_eq_some_iff.mp hes
    obtain ⟨more, hmore, hes⟩ := Option.bind_eq_some_iff.mp hes
    cases hes
    exact List.forall_mem_cons.mpr ⟨h m.2 j hj, ih hmore⟩

/-- A tree means a value that nests at most as deep as is allowed. -/
theorem Tree.depth_le_of_json? {depth : Nat} {t : Tree} {j : Json} (h : t.json? depth = some j) :
    j.depth ≤ depth := by
  induction depth using Nat.strongRecOn generalizing t j with
  | ind depth ih =>
    cases t with
    | null | bool =>
      rw [json?, Option.some_inj] at h
      subst h
      simp [Json.depth]
    | number | string =>
      rw [json?] at h
      obtain ⟨_, -, rfl⟩ := Option.map_eq_some_iff.mp h
      simp [Json.depth]
    | array ts =>
      cases depth with
      | zero =>
        rw [json?] at h
        cases h
      | succ depth =>
        rw [json?] at h
        obtain ⟨js, hjs, rfl⟩ := Option.map_eq_some_iff.mp h
        rw [Json.depth, Nat.succ_le_succ_iff, Json.depthAll_le_iff]
        exact depth_le_of_jsons? (fun _ _ => ih depth (Nat.lt_succ_self depth)) hjs
    | object ms =>
      cases depth with
      | zero =>
        rw [json?] at h
        cases h
      | succ depth =>
        rw [json?] at h
        obtain ⟨es, hes, rfl⟩ := Option.map_eq_some_iff.mp h
        rw [Json.depth, Nat.succ_le_succ_iff, Json.depthFields_le_iff]
        exact fun e he => depth_le_of_members? (fun _ _ => ih depth (Nat.lt_succ_self depth)) hes e
          (Keyed.mem_of_mem_ofPairs he)

/-! ### Strings -/

/-- A character is written as one piece of a string. -/
theorem exists_piece (c : Char) : ∃ p : Piece,
    (∀ ps s rest, Content ps s rest →
      Content (p :: ps) ((Json.escape c).map .char ++ s) rest) ∧
    ∀ ps, chars? (p :: ps) = (chars? ps).map (c :: ·) := by
  have hletter : ∀ {e d : Char}, Reader.plainEscape? e = some d → ∃ p : Piece,
      (∀ ps s rest, Content ps s rest → Content (p :: ps) (['\\', e].map .char ++ s) rest) ∧
      ∀ ps, chars? (p :: ps) = (chars? ps).map (d :: ·) := by
    intro e d h
    refine ⟨.char d, fun ps s rest hmore => .escape h hmore, fun ps => ?_⟩
    rw [chars?]
  unfold Json.escape
  split
  case h_8 hquote hbackslash _ _ _ _ _ =>
    split
    · next hcontrol =>
      have hdigits : ∀ n < 0x20,
          Reader.fourHex? '0' '0' (Json.hexDigit (n / 16)) (Json.hexDigit (n % 16)) = some n := by
        decide
      refine ⟨.unit c.toNat, fun ps s rest hmore => .unit (hdigits _ hcontrol) hmore, fun ps => ?_⟩
      have hlow : isLow c.toNat = false := by
        rw [isLow, Bool.and_eq_false_iff, decide_eq_false_iff_not]
        omega
      have hhigh : isHigh c.toNat = false := by
        rw [isHigh, Bool.and_eq_false_iff, decide_eq_false_iff_not]
        omega
      rw [chars?_unit, hlow, hhigh, Char.ofNat_toNat]
      rfl
    · next hcontrol =>
      have hprinted : 0x20 ≤ c.toNat := Nat.not_lt.mp hcontrol
      refine ⟨.char c, fun ps s rest hmore => .char hquote hbackslash hprinted hmore,
        fun ps => ?_⟩
      rw [chars?]
  all_goals exact hletter rfl

/-- A string is written as pieces that make its characters. -/
theorem exists_content (cs : List Char) : ∃ ps, chars? ps = some cs ∧
    ∀ rest, Content ps ((cs.flatMap Json.escape ++ ['"']).map .char ++ rest) rest := by
  induction cs with
  | nil => exact ⟨[], rfl, .close⟩
  | cons c cs ih =>
    obtain ⟨ps, hchars, htext⟩ := ih
    obtain ⟨p, hp, hmeans⟩ := exists_piece c
    refine ⟨p :: ps, by rw [hmeans, hchars]; rfl, fun rest => ?_⟩
    have hmore := hp ps _ rest (htext rest)
    rwa [List.flatMap_cons, List.append_assoc, List.map_append, List.append_assoc]

/-! ### Numbers -/

theorem run_digits {ds : List Nat} (h : ∀ d ∈ ds, d < 10) (rest : List Symbol) :
    Run ds ((ds.map Nat.digitChar).map .char ++ rest) rest := by
  induction ds with
  | nil => exact .nil rest
  | cons d ds ih =>
    obtain ⟨hd, hds⟩ := List.forall_mem_cons.mp h
    exact .cons (Digits.value?_digitChar d hd) (ih hds)

/-- The literal as which a whole number is written. -/
def wholeLiteral (n : Whole) : Literal := ⟨n.value < 0, Digits.ofNat n.value.natAbs, [], none⟩

theorem toNumber?_wholeLiteral (n : Whole) :
    (wholeLiteral n).toNumber? = some (.whole n) := by
  have hwhole : (wholeLiteral n).toWhole? = some n := by
    have hfits : Whole.ofInt? n.value = some n := dif_pos ⟨n.lower, n.upper⟩
    simp only [Literal.toWhole?, wholeLiteral, List.isEmpty_nil, Option.isNone_none, Bool.and_self,
      if_true, Digits.toNat_ofNat, decide_eq_true_eq]
    split
    · next hneg =>
      have hne : n.value.natAbs ≠ 0 := by omega
      have hvalue : -(n.value.natAbs : Int) = n.value := by omega
      rw [if_neg hne, hvalue, hfits]
    · next hneg =>
      have hvalue : (n.value.natAbs : Int) = n.value := by omega
      rw [hvalue, hfits]
  rw [Literal.toNumber?, hwhole]

theorem magnitude_wholeLiteral (n : Whole) (rest : List Symbol) :
    Magnitude (wholeLiteral n) ((Nat.toDigits 10 n.value.natAbs).map .char ++ rest) rest where
  exists_parts := by
    refine ⟨rest, rest, ?_, .absent rest, .absent rest⟩
    rw [Digits.toDigits_eq_map]
    exact run_digits (fun d => Digits.lt_ten_of_mem_ofNat) rest
  nonempty := Digits.ofNat_ne_nil _
  lead := by
    intro h
    obtain ⟨ds, hds⟩ := List.head?_eq_some_iff.mp h
    obtain ⟨-, hnil⟩ := Digits.eq_zero_of_ofNat_eq_zero_cons hds
    rw [hds, hnil]

/-! A number stays one if something follows it. -/

section Append

variable {s rest : List Symbol} (more : List Symbol)

theorem Blanks.append (h : Blanks s rest) : Blanks (s ++ more) (rest ++ more) := by
  obtain ⟨blanks, hblank, rfl⟩ := h
  exact ⟨blanks, hblank, List.append_assoc _ _ _⟩

theorem Run.append {ds : List Nat} (h : Run ds s rest) : Run ds (s ++ more) (rest ++ more) := by
  induction h with
  | nil s => exact .nil _
  | cons hdigit _ ih => exact .cons hdigit ih

theorem Fraction.append {ds : List Nat} (h : Fraction ds s rest) :
    Fraction ds (s ++ more) (rest ++ more) := by
  cases h with
  | absent s => exact .absent _
  | present hne hrun => exact .present hne (hrun.append more)

theorem Exponent.append {e : Option (Bool × List Nat)} (h : Exponent e s rest) :
    Exponent e (s ++ more) (rest ++ more) := by
  cases h with
  | absent s => exact .absent _
  | present hmark hsign hne hrun =>
    refine .present hmark ?_ hne (hrun.append more)
    cases hsign with
    | absent s => exact .absent _
    | plus s => exact .plus _
    | minus s => exact .minus _

theorem Magnitude.append {l : Literal} (h : Magnitude l s rest) :
    Magnitude l (s ++ more) (rest ++ more) := by
  obtain ⟨t, u, hrun, hfraction, hexponent⟩ := h.exists_parts
  exact ⟨⟨_, _, hrun.append more, hfraction.append more, hexponent.append more⟩, h.nonempty, h.lead⟩

theorem Spells.append_number {l : Literal} (h : Spells (.value (.number l)) s rest) :
    Spells (.value (.number l)) (s ++ more) (rest ++ more) := by
  cases h with
  | negative hsign hmagnitude => exact .negative hsign (hmagnitude.append more)
  | positive hsign hmagnitude => exact .positive hsign (hmagnitude.append more)

end Append

/-! ### Values -/

/-- A tree is that of the text that a value is written as, and means the value. -/
structure Tells (t : Tree) (j : Json) : Prop where
  text : ∀ rest, ∃ s₁ s₂, Blanks (j.print.map .char ++ rest) s₁ ∧ Spells (.value t) s₁ s₂ ∧
    Blanks s₂ rest
  json? : ∀ depth, j.depth ≤ depth → t.json? depth = some j

/-- A text without blanks around it. -/
theorem Tells.of_spells {t : Tree} {j : Json}
    (text : ∀ rest, Spells (.value t) (j.print.map .char ++ rest) rest)
    (json? : ∀ depth, j.depth ≤ depth → t.json? depth = some j) : Tells t j :=
  ⟨fun rest => ⟨_, _, .refl _, text rest, .refl _⟩, json?⟩

theorem exists_tells_string (s : String) : ∃ t, Tells t (.string s) := by
  obtain ⟨ps, hchars, htext⟩ := exists_content s.toList
  refine ⟨.string ps, .of_spells (fun rest => .string (htext rest)) fun depth _ => ?_⟩
  rw [Tree.json?, hchars, Option.map_some, String.ofList_toList]

theorem exists_tells_whole (n : Whole) : ∃ t, Tells t (.number (.whole n)) := by
  refine ⟨.number (wholeLiteral n), .of_spells (fun rest => ?_) fun depth _ => ?_⟩
  · have hmagnitude := magnitude_wholeLiteral n rest
    rw [Json.print, Number.text]
    by_cases hneg : n.value < 0
    · rw [if_pos hneg]
      exact .negative (decide_eq_true hneg) hmagnitude
    · rw [if_neg hneg]
      exact .positive (decide_eq_false hneg) hmagnitude
  · rw [Tree.json?, toNumber?_wholeLiteral]
    rfl

/-- A binary number that is read again is the text of a literal. -/
theorem exists_tells_real {x : Binary64}
    (h : Json.parse (String.ofList x.text) = .ok (.number (.real x))) :
    ∃ t, Tells t (.number (.real x)) := by
  obtain ⟨t, ⟨s₁, s₂, hfront, ht, hback⟩, hj⟩ := Json.parse_eq_ok_iff.mp h
  have hnumber : ∃ l, t = .number l := by
    cases t with
    | number l => exact ⟨l, rfl⟩
    | null => rw [Tree.json?] at hj; cases hj
    | bool b => rw [Tree.json?] at hj; cases hj
    | string ps =>
      rw [Tree.json?] at hj
      obtain ⟨cs, -, heq⟩ := Option.map_eq_some_iff.mp hj
      cases heq
    | array ts =>
      rw [Json.maxDepth, Tree.json?] at hj
      obtain ⟨js, -, heq⟩ := Option.map_eq_some_iff.mp hj
      cases heq
    | object ms =>
      rw [Json.maxDepth, Tree.json?] at hj
      obtain ⟨es, -, heq⟩ := Option.map_eq_some_iff.mp hj
      cases heq
  obtain ⟨l, rfl⟩ := hnumber
  refine ⟨.number l, fun rest => ?_, fun depth _ => ?_⟩
  · refine ⟨s₁ ++ rest, s₂ ++ rest, ?_, ht.append_number rest, ?_⟩
    · have htext := hfront.append rest
      rwa [Symbol.ofString, String.toList_ofList] at htext
    · exact hback.append rest
  · rw [Tree.json?] at hj ⊢
    exact hj

/-- Items are written with commas between them. -/
theorem exists_items {j : Json} {js : List Json} (h : ∀ i ∈ j :: js, ∃ t, Tells t i) :
    ∃ ts, (∀ rest, Spells (.items ts)
        ((Json.printItems (j :: js) ++ [']']).map .char ++ rest) rest) ∧
      ∀ depth, Json.depthAll (j :: js) ≤ depth → jsons? depth ts = some (j :: js) := by
  induction js generalizing j with
  | nil =>
    obtain ⟨t, ht⟩ := h j List.mem_cons_self
    refine ⟨[t], fun rest => ?_, fun depth hdepth => ?_⟩
    · obtain ⟨s₁, s₂, hfront, hvalue, hback⟩ := ht.text (.char ']' :: rest)
      refine .lastItem (show Blanks _ s₁ from ?_) hvalue hback
      simpa [Json.printItems, Json.printItemsAfter] using hfront
    · rw [Json.depthAll, Json.depthAll] at hdepth
      rw [jsons?, jsons?, ht.json? depth (by omega)]
      rfl
  | cons k js ih =>
    obtain ⟨ht, hjs⟩ := List.forall_mem_cons.mp h
    obtain ⟨t, ht⟩ := ht
    obtain ⟨ts, htext, hmeans⟩ := ih hjs
    refine ⟨t :: ts, fun rest => ?_, fun depth hdepth => ?_⟩
    · obtain ⟨s₁, s₂, hfront, hvalue, hback⟩ := ht.text
        (.char ',' :: ((Json.printItems (k :: js) ++ [']']).map .char ++ rest))
      refine .item (show Blanks _ s₁ from ?_) hvalue hback (htext rest)
      simpa [Json.printItems, Json.printItemsAfter] using hfront
    · rw [Json.depthAll] at hdepth
      rw [jsons?, ht.json? depth (by omega), hmeans depth (by omega)]
      rfl

/-- Fields are written with commas between them; the first begins with a quotation mark. -/
theorem exists_members {e : String × Json} {es : List (String × Json)}
    (h : ∀ f ∈ e :: es, ∃ t, Tells t f.2) :
    ∃ ms, (∀ rest, ∃ s, (Json.printFields (e :: es) ++ ['\x7d']).map .char ++ rest =
        .char '"' :: s ∧ Spells (.members ms) s rest) ∧
      ∀ depth, Json.depthFields (e :: es) ≤ depth → members? depth ms = some (e :: es) := by
  induction es generalizing e with
  | nil =>
    obtain ⟨key, j⟩ := e
    obtain ⟨t, ht⟩ : ∃ t, Tells t j := h _ List.mem_cons_self
    obtain ⟨ps, hchars, hkey⟩ := exists_content key.toList
    refine ⟨[(ps, t)], fun rest => ?_, fun depth hdepth => ?_⟩
    · obtain ⟨s₁, s₂, hfront, hvalue, hback⟩ := ht.text (.char '\x7d' :: rest)
      refine ⟨_, ?_, .lastMember (hkey _) (.refl _) hfront hvalue hback⟩
      simp [Json.printFields, Json.printFieldsAfter, Json.quote]
    · rw [Json.depthFields, Json.depthFields] at hdepth
      rw [members?, members?, hchars, ht.json? depth (by omega)]
      simp
  | cons f es ih =>
    obtain ⟨key, j⟩ := e
    obtain ⟨t, ht⟩ : ∃ t, Tells t j := h _ List.mem_cons_self
    have hes := (List.forall_mem_cons.mp h).2
    obtain ⟨ps, hchars, hkey⟩ := exists_content key.toList
    obtain ⟨ms, htext, hmeans⟩ := ih hes
    refine ⟨(ps, t) :: ms, fun rest => ?_, fun depth hdepth => ?_⟩
    · obtain ⟨s, hs, hmore⟩ := htext rest
      obtain ⟨s₁, s₂, hfront, hvalue, hback⟩ := ht.text (.char ',' :: .char '"' :: s)
      refine ⟨_, ?_, .member (hkey _) (.refl _) hfront hvalue hback (.refl _) hmore⟩
      rw [← hs]
      obtain ⟨key', j'⟩ := f
      simp [Json.printFields, Json.printFieldsAfter, Json.quote]
    · rw [Json.depthFields] at hdepth
      rw [members?, hchars, ht.json? depth (by omega), hmeans depth (by omega)]
      simp

/-- Proper JSON is written as the text of a tree that means it, if its binary numbers are. -/
theorem exists_tells {j : Json} (hproper : j.proper = true)
    (hreals : ∀ x ∈ j.reals, Json.parse (String.ofList x.text) = .ok (.number (.real x))) :
    ∃ t, Tells t j := by
  induction j using Json.induction with
  | null =>
    exact ⟨.null, .of_spells (fun rest => .nullWord rest) fun depth _ => by rw [Tree.json?]⟩
  | bool b =>
    refine ⟨.bool b, .of_spells (fun rest => ?_) fun depth _ => by rw [Tree.json?]⟩
    cases b with
    | true => exact .trueWord rest
    | false => exact .falseWord rest
  | number n =>
    cases n with
    | whole n => exact exists_tells_whole n
    | real x =>
      have hmem : x ∈ (Json.number (.real x)).reals := by
        rw [Json.reals]
        exact List.mem_singleton_self x
      exact exists_tells_real (hreals x hmem)
  | string s => exact exists_tells_string s
  | array items ih =>
    have hitems : ∀ i ∈ items, ∃ t, Tells t i := fun i hi =>
      ih i hi (Json.proper_array.mp hproper i hi) fun x hx =>
        hreals x (by rw [Json.reals]; exact Json.mem_realsAll hi hx)
    cases items with
    | nil =>
      refine ⟨.array [], .of_spells (fun rest => .emptyArray (.refl _)) fun depth hdepth => ?_⟩
      obtain ⟨depth, rfl⟩ := Nat.exists_eq_add_one_of_ne_zero (Nat.ne_zero_of_lt hdepth)
      rw [Tree.json?, jsons?]
      rfl
    | cons i items =>
      obtain ⟨ts, htext, hmeans⟩ := exists_items hitems
      refine ⟨.array ts, .of_spells (fun rest => .array (htext rest)) fun depth hdepth => ?_⟩
      rw [Json.depth] at hdepth
      obtain ⟨depth, rfl⟩ := Nat.exists_eq_add_one_of_ne_zero (Nat.ne_zero_of_lt hdepth)
      rw [Tree.json?, hmeans depth (Nat.le_of_succ_le_succ hdepth)]
      rfl
  | object fields ih =>
    obtain ⟨hnodup, hvalues⟩ := Json.proper_object.mp hproper
    have hfields : ∀ e ∈ fields, ∃ t, Tells t e.2 := fun e he =>
      ih e he (hvalues e he) fun x hx =>
        hreals x (by rw [Json.reals]; exact Json.mem_realsFields he hx)
    cases fields with
    | nil =>
      refine ⟨.object [], .of_spells (fun rest => .emptyObject (.refl _)) fun depth hdepth => ?_⟩
      obtain ⟨depth, rfl⟩ := Nat.exists_eq_add_one_of_ne_zero (Nat.ne_zero_of_lt hdepth)
      rw [Tree.json?, members?]
      rfl
    | cons e fields =>
      obtain ⟨ms, htext, hmeans⟩ := exists_members hfields
      refine ⟨.object ms, .of_spells (fun rest => ?_) fun depth hdepth => ?_⟩
      · obtain ⟨s, hs, hmembers⟩ := htext rest
        refine .object ?_ hmembers
        rw [← hs]
        exact .refl _
      · rw [Json.depth] at hdepth
        obtain ⟨depth, rfl⟩ := Nat.exists_eq_add_one_of_ne_zero (Nat.ne_zero_of_lt hdepth)
        rw [Tree.json?, hmeans depth (Nat.le_of_succ_le_succ hdepth), Option.map_some,
          Keyed.ofPairs_eq_self hnodup]

end Grammar

/-- **JSON that is written is read again**, if it names no field of an object twice, does not nest
too deep, and its binary numbers are read again. -/
theorem Json.parse_text {j : Json} (hproper : j.proper = true) (hdepth : j.depth ≤ maxDepth)
    (hreals : ∀ x ∈ j.reals, parse (String.ofList x.text) = .ok (.number (.real x))) :
    parse j.text = .ok j := by
  obtain ⟨t, ht⟩ := Grammar.exists_tells hproper hreals
  obtain ⟨s₁, s₂, hfront, hvalue, hback⟩ := ht.text []
  refine parse_eq_ok_iff.mpr ⟨t, ⟨s₁, s₂, ?_, hvalue, hback⟩, ht.json? maxDepth hdepth⟩
  rw [List.append_nil] at hfront
  rwa [text, Symbol.ofString, String.toList_ofList]

end RemoteSettings
