import RemoteSettings.Proofs.Reading
import RemoteSettings.Yaml.Document

/-!
# What a file says

Of the entries of a mapping that have one key only one is left, so no key stands twice in a mapping
that is read.

## Main results

* `Yaml.nodup_keys_of_read` — no key stands twice in the mapping that a text is, nor in a mapping
  in it.
-/

namespace RemoteSettings.Yaml

theorem Plain.isObject_meaning (s : List Char) : (Plain.meaning s).isObject = false := by
  unfold Plain.meaning
  split
  · rfl
  · split
    · rfl
    · split <;> rfl

namespace Node

/-- What a scalar with a tag means is no mapping. -/
theorem isObject_of_tagged? {tag text : String} {j : Json} (h : tagged? tag text = some j) :
    j.isObject = false := by
  unfold tagged? at h
  split at h
  · split at h <;> cases h
    rfl
  · split at h
    · obtain ⟨_, -, rfl⟩ := Option.map_eq_some_iff.mp h
      rfl
    · split at h
      · obtain ⟨_, -, rfl⟩ := Option.map_eq_some_iff.mp h
        rfl
      · split at h
        · obtain ⟨_, -, rfl⟩ := Option.map_eq_some_iff.mp h
          rfl
        · cases h
          rfl

/-- No key stands twice in a mapping that a node means. -/
theorem nodup_keys_of_toJson? {depth : Nat} {n : Node} {fields : Keyed String Json}
    (h : n.toJson? depth = some (.object fields)) : (Keyed.keys fields).Nodup := by
  cases n with
  | scalar tag text isPlain =>
    rw [toJson?.eq_def] at h
    dsimp only at h
    split at h
    · split at h
      · cases h
      · exact nomatch (isObject_of_tagged? h)
    · have hj := Option.some.inj h
      split at hj
      · exact nomatch (congrArg Json.isObject hj).symm.trans (Plain.isObject_meaning text.toList)
      · cases hj
  | sequence tag items =>
    rw [toJson?] at h
    split at h
    · cases h
    · obtain ⟨_, -, h⟩ := Option.map_eq_some_iff.mp h
      cases h
  | mapping tag entries =>
    rw [toJson?] at h
    split at h
    · cases h
    · obtain ⟨members, -, h⟩ := Option.map_eq_some_iff.mp h
      cases h
      exact Keyed.nodup_keys_ofPairs members

/-- The fields that entries mean are what nodes mean. -/
theorem exists_node_of_entriesJson? {depth : Nat} {entries : List (Node × Node)}
    {members : List (String × Json)} (h : entriesJson? depth entries = some members) :
    ∀ e ∈ members, ∃ n : Node, n.toJson? depth = some e.2 := by
  induction entries generalizing members with
  | nil =>
    rw [entriesJson?] at h
    cases h
    exact List.forall_mem_nil _
  | cons entry rest ih =>
    rw [entriesJson?.eq_def] at h
    split at h
    · next hnil => cases hnil
    · next hentry =>
      cases hentry
      obtain ⟨j, hj, h⟩ := Option.bind_eq_some_iff.mp h
      obtain ⟨more, hmore, h⟩ := Option.bind_eq_some_iff.mp h
      cases h
      exact List.forall_mem_cons.mpr ⟨⟨_, hj⟩, ih hmore⟩
    · cases h

end Node

/-- No key stands twice in the mapping that a text is, nor in a mapping that stands in it. -/
theorem nodup_keys_of_read {text : String} {fields : Keyed String Json}
    (h : read text = some fields) : (Keyed.keys fields).Nodup ∧
      ∀ e ∈ fields, ∀ inner, e.2 = .object inner → (Keyed.keys inner).Nodup := by
  obtain ⟨node, members, hmembers, rfl⟩ :
      ∃ node members, Node.fields? node = some members ∧ fields = Keyed.ofPairs members := by
    unfold read at h
    dsimp only at h
    split at h
    · obtain ⟨tokens, -, h⟩ := Option.bind_eq_some_iff.mp h
      obtain ⟨node, -, h⟩ := Option.bind_eq_some_iff.mp h
      obtain ⟨members, hmembers, h⟩ := Option.bind_eq_some_iff.mp h
      exact ⟨node, members, hmembers, (Option.some.inj h).symm⟩
    · cases h
  refine ⟨Keyed.nodup_keys_ofPairs members, fun e he inner hinner => ?_⟩
  replace he := Keyed.mem_of_mem_ofPairs he
  unfold Node.fields? at hmembers
  split at hmembers
  · obtain ⟨n, hn⟩ := Node.exists_node_of_entriesJson? hmembers e he
    exact Node.nodup_keys_of_toJson? (hinner ▸ hn)
  · cases hmembers
    exact absurd he List.not_mem_nil
  · cases hmembers

end RemoteSettings.Yaml
