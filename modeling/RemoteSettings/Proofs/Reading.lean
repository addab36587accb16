import RemoteSettings.Assignment
import RemoteSettings.Proofs.Equality

/-!
# What is read is proper

An object is read member by member, and a key that comes again takes the place of the one before.
So no object that is read from a text names a field twice, and neither does any object in a setting
or in an update that is read from one.

## Main results

* `Json.proper_of_read` — **JSON that is read from a text is proper.**
* `Record.foldlM_of_decode` — a record is read member by member.
* `Record.decode_induction` — what holds of the blank record and is kept by each field holds of a
  record that is read.
* `Value.proper_parse`, `Setting.proper_of_decode`, `Update.proper_of_decode` — values that are
  typed, and settings and updates that are read from proper JSON, are proper.
-/

namespace RemoteSettings

theorem bind_eq_ok {ε α β : Type} {x : Except ε α} {f : α → Except ε β} {b : β}
    (h : x >>= f = .ok b) : ∃ a, x = .ok a ∧ f a = .ok b := by
  cases x with
  | error e => cases h
  | ok a => exact ⟨a, rfl, h⟩

theorem mapError_eq_ok {ε ε' α : Type} {x : Except ε α} {f : ε → ε'} {a : α}
    (h : x.mapError f = .ok a) : x = .ok a := by
  cases x with
  | error e => cases h
  | ok b => exact congrArg Except.ok (Except.ok.inj h)

namespace Keyed

variable {κ α : Type} [DecidableEq κ]

theorem nodup_keys_ofPairs (pairs : List (κ × α)) : (ofPairs pairs).keys.Nodup := by
  have hfold : ∀ (pairs : List (κ × α)) (m : Keyed κ α), m.keys.Nodup →
      (pairs.foldl (fun m p => m.put p.1 p.2) m).keys.Nodup := by
    intro pairs
    induction pairs with
    | nil => exact fun _ h => h
    | cons p pairs ih => exact fun m h => ih _ (nodup_keys_put h p.1 p.2)
  exact hfold pairs [] List.nodup_nil

theorem mem_of_mem_ofPairs {pairs : List (κ × α)} {e : κ × α} (h : e ∈ ofPairs pairs) :
    e ∈ pairs := by
  have hfold : ∀ (pairs : List (κ × α)) (m : Keyed κ α),
      e ∈ pairs.foldl (fun m p => m.put p.1 p.2) m → e ∈ m ∨ e ∈ pairs := by
    intro pairs
    induction pairs with
    | nil => exact fun _ h => Or.inl h
    | cons p pairs ih =>
      intro m h
      rcases ih _ h with hput | hmem
      · rcases mem_of_mem_put hput with rfl | hm
        · exact Or.inr List.mem_cons_self
        · exact Or.inl hm
      · exact Or.inr (List.mem_cons_of_mem p hmem)
  exact (hfold pairs [] h).resolve_left List.not_mem_nil

end Keyed

/-! ### Texts -/

namespace Reader

/-- Whatever is read in a number of steps is proper. -/
structure Proper (fuel : Nat) : Prop where
  value : ∀ depth s j rest, value fuel depth s = .ok (j, rest) → j.proper = true
  items : ∀ depth s js rest, items fuel depth s = .ok (js, rest) → ∀ j ∈ js, j.proper = true
  members : ∀ depth s es rest, members fuel depth s = .ok (es, rest) →
    ∀ e ∈ es, e.2.proper = true

theorem Proper.zero : Proper 0 where
  value _ _ _ _ h := nomatch h
  items _ _ _ _ h := nomatch h
  members _ _ _ _ h := nomatch h

/-- A value is an atom, or it contains items or members that are proper. -/
theorem Proper.value_succ {fuel : Nat} (ih : Proper fuel) {depth : Nat} {s rest : List Symbol}
    {j : Json} (h : Reader.value (fuel + 1) depth s = .ok (j, rest)) : j.proper = true := by
  have hatom : ∀ {α : Type} {x : Except Fault (α × List Symbol)} {atom : α → Json},
      (∀ a, (atom a).proper = true) →
      (do let (a, rest) ← x; .ok (atom a, rest)) = Except.ok (j, rest) → j.proper = true := by
    intro α x atom hproper h
    obtain ⟨_, -, h⟩ := bind_eq_ok h
    cases h
    exact hproper _
  have hword : ∀ {x : Except Fault (List Symbol)} {atom : Json}, atom.proper = true →
      (do let rest ← x; .ok (atom, rest)) = Except.ok (j, rest) → j.proper = true := by
    intro x atom hproper h
    obtain ⟨_, -, h⟩ := bind_eq_ok h
    cases h
    exact hproper
  rw [Reader.value] at h
  split at h
  · cases h
  · exact hword rfl h
  · exact hword rfl h
  · exact hword rfl h
  · exact hatom (fun _ => rfl) h
  · exact hatom (fun _ => rfl) h
  · -- An array, which may be empty.
    split at h
    · cases h
    · split at h
      · cases h
      · cases h
        rfl
      · obtain ⟨⟨js, _⟩, hitems, h⟩ := bind_eq_ok h
        cases h
        exact Json.proper_array.mpr (ih.items _ _ _ _ hitems)
  · -- An object, in which the members of one key have become one field.
    split at h
    · cases h
    · split at h
      · cases h
      · cases h
        rfl
      · obtain ⟨⟨es, _⟩, hmembers, h⟩ := bind_eq_ok h
        cases h
        refine Json.proper_object.mpr ⟨Keyed.nodup_keys_ofPairs es, fun e he => ?_⟩
        exact ih.members _ _ _ _ hmembers e (Keyed.mem_of_mem_ofPairs he)
      · cases h
  · split at h
    · exact hatom (fun _ => rfl) h
    · cases h

theorem Proper.items_succ {fuel : Nat} (ih : Proper fuel) {depth : Nat} {s rest : List Symbol}
    {js : List Json} (h : Reader.items (fuel + 1) depth s = .ok (js, rest)) :
    ∀ j ∈ js, j.proper = true := by
  rw [Reader.items] at h
  obtain ⟨⟨item, _⟩, hitem, h⟩ := bind_eq_ok h
  have hproper := ih.value _ _ _ _ hitem
  dsimp only at h
  split at h
  · cases h
  · cases h
    exact List.forall_mem_singleton.mpr hproper
  · split at h
    · cases h
    · cases h
    · obtain ⟨⟨more, _⟩, hmore, h⟩ := bind_eq_ok h
      cases h
      exact List.forall_mem_cons.mpr ⟨hproper, ih.items _ _ _ _ hmore⟩
  · cases h

theorem Proper.members_succ {fuel : Nat} (ih : Proper fuel) {depth : Nat} {s rest : List Symbol}
    {es : List (String × Json)} (h : Reader.members (fuel + 1) depth s = .ok (es, rest)) :
    ∀ e ∈ es, e.2.proper = true := by
  rw [Reader.members] at h
  obtain ⟨⟨key, _⟩, -, h⟩ := bind_eq_ok h
  obtain ⟨_, -, h⟩ := bind_eq_ok h
  obtain ⟨⟨item, _⟩, hitem, h⟩ := bind_eq_ok h
  have hproper := ih.value _ _ _ _ hitem
  dsimp only at h
  split at h
  · cases h
  · cases h
    exact List.forall_mem_singleton.mpr hproper
  · split at h
    · cases h
    · cases h
    · obtain ⟨⟨more, _⟩, hmore, h⟩ := bind_eq_ok h
      cases h
      exact List.forall_mem_cons.mpr ⟨hproper, ih.members _ _ _ _ hmore⟩
    · cases h
  · cases h

theorem proper (fuel : Nat) : Proper fuel := by
  induction fuel with
  | zero => exact Proper.zero
  | succ fuel ih =>
    exact ⟨fun _ _ _ _ => ih.value_succ, fun _ _ _ _ => ih.items_succ,
      fun _ _ _ _ => ih.members_succ⟩

end Reader

/-- **JSON that is read from a text is proper.** -/
theorem Json.proper_of_read {s : List Symbol} {j : Json} (h : Json.read s = .ok j) :
    j.proper = true := by
  obtain ⟨⟨j', rest⟩, hvalue, h⟩ := bind_eq_ok (mapError_eq_ok h)
  obtain ⟨_, -, h⟩ := bind_eq_ok h
  cases h
  exact (Reader.proper _).value _ _ _ _ hvalue

/-! ### Records -/

/-- The values that a record may be read from: those of an object's fields, or an array's items. -/
def Json.parts : Json → List Json
  | .object members => members.map (·.2)
  | .array items => items
  | _ => []

theorem Json.proper_parts {j : Json} (hj : j.proper = true) : ∀ i ∈ j.parts, i.proper = true := by
  cases j with
  | object members => exact List.forall_mem_map.mpr (Json.proper_object.mp hj).2
  | array items => exact Json.proper_array.mp hj
  | _ => exact fun i hi => absurd hi List.not_mem_nil

/-- A record is read member by member, whether from an object or from an array. -/
theorem Record.foldlM_of_decode {α : Type} {r : Record α} {j : Json} {a : α}
    (h : r.decode j = .ok a) : ∃ members : List (String × Json),
      members.foldlM r.setMember r.blank = .ok a ∧ ∀ m ∈ members, m.2 ∈ j.parts := by
  cases j with
  | object members =>
    obtain ⟨b, hb, h⟩ := bind_eq_ok h
    split at h
    · cases h
    · cases h
      exact ⟨members, hb, fun m hm => List.mem_map_of_mem hm⟩
  | array items =>
    obtain ⟨b, hb, h⟩ := bind_eq_ok h
    split at h
    · cases h
    · split at h
      · cases h
      · cases h
        exact ⟨_, hb, fun m hm => (List.of_mem_zip hm).2⟩
  | _ => cases h

/-- What holds of the blank record, and is kept whenever a field is set to one of the values that
the record is read from, holds of the record that is read. -/
theorem Record.decode_induction {α : Type} {P : α → Prop} {r : Record α} {j : Json}
    (blank : P r.blank)
    (set : ∀ a name i b, P a → i ∈ j.parts → r.set a name i = .ok b → P b) {a : α}
    (h : r.decode j = .ok a) : P a := by
  obtain ⟨members, hfold, hparts⟩ := foldlM_of_decode h
  have hmembers : ∀ (members : List (String × Json)) a b, P a → (∀ m ∈ members, m.2 ∈ j.parts) →
      members.foldlM r.setMember a = .ok b → P b := by
    intro members
    induction members with
    | nil =>
      intro a b ha _ h
      cases h
      exact ha
    | cons m members ih =>
      intro a b ha hparts h
      rw [List.foldlM_cons] at h
      obtain ⟨c, hc, h⟩ := bind_eq_ok h
      obtain ⟨hm, hrest⟩ := List.forall_mem_cons.mp hparts
      refine ih c b ?_ hrest h
      unfold setMember at hc
      split at hc
      · exact set a m.1 m.2 c ha hm hc
      · split at hc
        · cases hc
        · cases hc
          exact ha
  exact hmembers members r.blank a blank hparts hfold

theorem Value.proper_ofJson {j : Json} (h : j.proper = true) : (Value.ofJson j).proper = true := by
  cases j with
  | array items =>
    rw [ofJson]
    split
    · rfl
    · exact h
  | object fields => exact h
  | _ => rfl

/-- A value as typed is proper. -/
theorem Value.proper_parse (raw : String) : (Value.parse raw).proper = true := by
  unfold Value.parse
  split
  · next j hj =>
    refine Value.proper_ofJson (Json.proper_of_read (s := Symbol.ofString raw) ?_)
    unfold Json.parse? Json.parse at hj
    cases hread : Json.read (Symbol.ofString raw) with
    | error e =>
      rw [hread] at hj
      cases hj
    | ok k =>
      rw [hread] at hj
      cases hj
      rfl
  · rfl

/-- Something that may be null and is not has been read. -/
theorem Decode.nullable_eq_ok {α : Type} {read : Json → Except Complaint α} {j : Json}
    {a : Option α} (h : Decode.nullable read j = .ok a) : ∀ b ∈ a, read j = .ok b := by
  intro b hb
  cases hb
  cases hj : read j with
  | error c => cases j <;> simp [nullable, hj] at h
  | ok d => cases j <;> simp_all [nullable]

theorem Setting.proper_of_decode {j : Json} (hj : j.proper = true) {x : Setting}
    (h : Setting.decode j = .ok x) : x.proper = true := by
  refine Record.decode_induction (P := fun x => x.proper = true) rfl ?_ h
  intro x name i y hx hi h
  replace hj := Json.proper_parts hj i hi
  have hparts : x.value.proper = true ∧ x.fallback.all Value.proper = true ∧
      x.options.all Json.proper = true := by
    simpa only [proper, Bool.and_eq_true, and_assoc] using hx
  obtain ⟨hvalue, hfallback, hoptions⟩ := hparts
  simp only [Setting.record] at h
  split at h
  case h_5 =>
    -- The value.
    cases h
    simp [proper, Value.proper_ofJson hj, hfallback, hoptions]
  case h_6 =>
    -- The value to reset to.
    obtain ⟨fallback, hread, h⟩ := bind_eq_ok h
    cases h
    have hnew : fallback.all Value.proper = true := (Option.all_eq_true _ _).mpr fun v hv =>
      Except.ok.inj (Decode.nullable_eq_ok hread v hv) ▸ Value.proper_ofJson hj
    simp [proper, hvalue, hnew, hoptions]
  case h_7 =>
    -- The choices.
    obtain ⟨options, hread, h⟩ := bind_eq_ok h
    cases h
    have hnew : options.all Json.proper = true := (Option.all_eq_true _ _).mpr fun k hk =>
      Except.ok.inj (Decode.nullable_eq_ok hread k hk) ▸ hj
    simp [proper, hvalue, hfallback, hnew]
  case h_10 =>
    -- A field of another name is passed over.
    cases h
    exact hx
  -- The other fields have no part in being proper.
  all_goals
    obtain ⟨_, -, h⟩ := bind_eq_ok h
    cases h
    exact hx

theorem Update.proper_of_decode {j : Json} (hj : j.proper = true) {u : Update}
    (h : Update.decode j = .ok u) : u.value.proper = true := by
  refine Record.decode_induction (P := fun u => u.value.proper = true) rfl ?_ h
  intro u name i v hu hi h
  replace hj := Json.proper_parts hj i hi
  simp only [Update.record] at h
  split at h
  · obtain ⟨_, -, h⟩ := bind_eq_ok h
    cases h
    exact hu
  · cases h
    exact Value.proper_ofJson hj
  · cases h
    exact hu

end RemoteSettings
