import Mathlib.Data.List.Forall2
import RemoteSettings.BatchReply
import RemoteSettings.Proofs.Reading

/-!
# What the reply to a batch says

The body of a reply lists items, and each item that is read becomes an entry.  Which of the entries
have failed is decided by their items alone: an item has failed exactly if it has an object for its
error.

## Main definitions

* `BatchReply.items` — the items that a body lists.
* `BatchReply.Entry.Reads` — what an entry says about its item.

## Main results

* `BatchReply.reads_of_decode` — **a reply has one entry for each item, in their order.**
* `BatchReply.exists_mapM_decode`, `BatchReply.decode_of_mapM` — a body of which no item has failed
  is read as settings.
-/

namespace RemoteSettings.BatchReply

/-- What a body gives for the list of entries; the last member of that name counts. -/
def list? : Json → Option Json
  | .object members => (members.findRev? (·.1 == "update")).map (·.2)
  | .array values => values.head?
  | _ => none

/-- The items that a body lists. -/
def items (body : Json) : List Json :=
  match list? body with
  | some (.array items) => items
  | _ => []

/-- What an entry says about its item. -/
def Entry.Reads (item : Json) : Entry → Prop
  | .failed f =>
    ∃ error, item.get? "error" = some error ∧ error.isObject = true
      ∧ Rejection.decode error = .ok f.rejection
      ∧ f.id = ((item.get? "id").bind Json.string?).getD ""
  | .updated x =>
    (∀ error, item.get? "error" = some error → error.isObject = false)
      ∧ Setting.decode item = .ok x

/-! ### Results of sequences -/

theorem forall₂_of_mapM {ε α β : Type} {f : α → Except ε β} {xs : List α} {ys : List β}
    (h : xs.mapM f = .ok ys) : List.Forall₂ (fun x y => f x = .ok y) xs ys := by
  induction xs generalizing ys with
  | nil =>
    cases h
    exact .nil
  | cons x xs ih =>
    rw [List.mapM_cons] at h
    obtain ⟨y, hy, h⟩ := bind_eq_ok h
    obtain ⟨rest, hrest, h⟩ := bind_eq_ok h
    cases h
    exact .cons hy (ih hrest)

/-! ### Entries -/

/-- An entry that is read says what its item says. -/
theorem Entry.reads_of_decode {item : Json} {e : Entry} (h : Entry.decode item = .ok e) :
    Entry.Reads item e := by
  rw [Entry.decode] at h
  split at h
  · next error herror =>
    obtain ⟨hget, hobject⟩ := Option.filter_eq_some_iff.mp herror
    obtain ⟨rejection, hrejection, h⟩ := bind_eq_ok h
    cases h
    exact ⟨error, hget, hobject, hrejection, rfl⟩
  · next hnone =>
    cases hsetting : Setting.decode item with
    | error c =>
      rw [hsetting] at h
      cases h
    | ok x =>
      rw [hsetting] at h
      cases h
      refine ⟨fun error herror => ?_, hsetting⟩
      rw [herror, Option.filter_some] at hnone
      simpa using hnone

/-! ### Replies -/

/-- Only the list of entries counts among the members of a body. -/
theorem setMember_eq (r : BatchReply) (member : String × Json) :
    record.setMember r member
      = if member.1 = "update" then do
          return { r with entries := ← Decode.list Entry.decode member.2 }
        else .ok r := by
  by_cases h : member.1 = "update"
  · rw [if_pos h, Record.setMember, h]
    rfl
  · rw [if_neg h, Record.setMember, if_neg (by simpa [record] using h)]
    rfl

/-- The last list of entries takes the place of any other. -/
theorem decode_list_of_setAll {members : List (String × Json)} {start r : BatchReply}
    (h : members.foldlM record.setMember start = .ok r) :
    (members.findRev? (·.1 == "update") = none ∧ r = start)
      ∨ ∃ m, members.findRev? (·.1 == "update") = some m
          ∧ Decode.list Entry.decode m.2 = .ok r.entries := by
  induction members generalizing start with
  | nil =>
    cases h
    exact .inl ⟨rfl, rfl⟩
  | cons m members ih =>
    rw [List.foldlM_cons] at h
    obtain ⟨next, hnext, h⟩ := bind_eq_ok h
    rw [List.findRev?]
    rcases ih h with ⟨hnone, rfl⟩ | ⟨m', hm', hlist⟩
    · -- No later member gives a list, so that of this one stays.
      rw [hnone]
      rw [setMember_eq] at hnext
      by_cases hm : m.1 = "update"
      · rw [if_pos hm] at hnext
        obtain ⟨entries, hentries, hr⟩ := bind_eq_ok hnext
        cases hr
        exact .inr ⟨m, by simp [hm], hentries⟩
      · rw [if_neg hm] at hnext
        cases hnext
        exact .inl ⟨by simp [hm], rfl⟩
    · rw [hm']
      exact .inr ⟨m', rfl, hlist⟩

/-- What is read of a body is read of the list that it gives. -/
theorem decode_list_of_decode {body : Json} {r : BatchReply} (h : decode body = .ok r) :
    (list? body = none ∧ r.entries = [])
      ∨ ∃ j, list? body = some j ∧ Decode.list Entry.decode j = .ok r.entries := by
  cases body with
  | object members =>
    obtain ⟨value, hvalue, h⟩ := bind_eq_ok h
    cases h
    rcases decode_list_of_setAll hvalue with ⟨hnone, rfl⟩ | ⟨m, hm, hlist⟩
    · exact .inl ⟨by rw [list?, hnone]; rfl, rfl⟩
    · exact .inr ⟨m.2, by rw [list?, hm]; rfl, hlist⟩
  | array values =>
    obtain ⟨value, hvalue, h⟩ := bind_eq_ok h
    cases values with
    | nil =>
      cases hvalue
      cases h
      exact .inl ⟨rfl, rfl⟩
    | cons j values =>
      have hr : value = r := by
        split at h
        · cases h
        · split at h
          · cases h
          · cases h
            rfl
      subst hr
      rcases decode_list_of_setAll hvalue with ⟨hnone, -⟩ | ⟨m, hm, hlist⟩
      · cases hnone
      · cases hm
        exact .inr ⟨j, rfl, hlist⟩
  | _ => cases h

/-- **A reply has one entry for each item, in their order.** -/
theorem reads_of_decode {body : Json} {r : BatchReply} (h : decode body = .ok r) :
    List.Forall₂ Entry.Reads (items body) r.entries := by
  rw [items]
  rcases decode_list_of_decode h with ⟨hnone, hentries⟩ | ⟨j, hj, hlist⟩
  · rw [hnone, hentries]
    exact .nil
  · rw [hj]
    cases j with
    | array values => exact (forall₂_of_mapM hlist).imp fun _ _ => Entry.reads_of_decode
    | _ => cases hlist

/-! ### Replies in which nothing has failed -/

/-- An item that has not failed is read as a setting. -/
theorem Entry.decode_of_accepted {item : Json} {x : Setting}
    (haccepted : ∀ error, item.get? "error" = some error → error.isObject = false)
    (hx : Setting.decode item = .ok x) : Entry.decode item = .ok (.updated x) := by
  have hnone : (item.get? "error").filter Json.isObject = none := by
    rw [Option.filter_eq_none_iff]
    intro error herror
    rw [haccepted error herror]
    exact Bool.false_ne_true
  rw [Entry.decode, hnone]
  dsimp only
  rw [hx]
  rfl

/-- Items that have not failed are read as settings, one after another. -/
theorem exists_mapM_decode {items : List Json}
    (haccepted : ∀ item ∈ items, ∀ error, item.get? "error" = some error → error.isObject = false)
    (hreadable : ∀ item ∈ items, ∃ x, Setting.decode item = .ok x) :
    ∃ xs : List Setting, items.mapM Entry.decode = .ok (xs.map .updated) ∧
      ∀ x, x ∈ xs ↔ ∃ item ∈ items, Setting.decode item = .ok x := by
  induction items with
  | nil => exact ⟨[], rfl, by simp⟩
  | cons item items ih =>
    obtain ⟨haccepted, haccepted'⟩ := List.forall_mem_cons.mp haccepted
    obtain ⟨⟨x, hx⟩, hreadable'⟩ := List.forall_mem_cons.mp hreadable
    obtain ⟨xs, hxs, hmem⟩ := ih haccepted' hreadable'
    refine ⟨x :: xs, ?_, ?_⟩
    · rw [List.mapM_cons, Entry.decode_of_accepted haccepted hx, hxs]
      rfl
    · intro y
      rw [List.mem_cons, hmem, List.exists_mem_cons_iff, hx, Except.ok.injEq, eq_comm]

/-- Only the list of entries is read of a body. -/
theorem foldlM_setMember {members : List (String × Json)} {items : List Json}
    {entries : List Entry} (hdistinct : (Keyed.keys members).Nodup)
    (hentries : items.mapM Entry.decode = .ok entries) (start : BatchReply)
    (hlist : ∀ j, Keyed.get? "update" members = some j → j = .array items) :
    members.foldlM record.setMember start
      = .ok (if (Keyed.get? "update" members).isSome then ⟨entries⟩ else start) := by
  induction members generalizing start with
  | nil => rfl
  | cons m rest ih =>
    obtain ⟨name, j⟩ := m
    rw [Keyed.keys_cons, List.nodup_cons] at hdistinct
    rw [List.foldlM_cons, setMember_eq]
    by_cases hname : name = "update"
    · subst hname
      have hnone : Keyed.get? "update" rest = none := Keyed.get?_eq_none_iff.mpr hdistinct.1
      have hj : j = .array items := hlist j (Keyed.get?_cons_self _ _ _)
      have hrest := ih hdistinct.2 ⟨entries⟩ (by simp [hnone])
      rw [if_pos rfl, hj, Decode.list, hentries, Keyed.get?_cons_self]
      rw [hnone] at hrest
      exact hrest
    · rw [if_neg hname, Keyed.get?_cons_of_ne hname]
      refine ih hdistinct.2 start fun k hk => hlist k ?_
      rw [Keyed.get?_cons_of_ne hname, hk]

/-- A body is read as its list of entries. -/
theorem decode_of_mapM {members : List (String × Json)} {items : List Json} {entries : List Entry}
    (hdistinct : (Keyed.keys members).Nodup)
    (hlist : Keyed.get? "update" members = some (.array items))
    (hentries : items.mapM Entry.decode = .ok entries) :
    decode (.object members) = .ok ⟨entries⟩ := by
  have hread := foldlM_setMember hdistinct hentries record.blank fun j hj =>
    Option.some.inj (hj.symm.trans hlist)
  rw [hlist] at hread
  rw [decode, Record.decode, Record.setAll, hread]
  rfl

end RemoteSettings.BatchReply
