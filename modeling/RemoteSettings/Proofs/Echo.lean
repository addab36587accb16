import RemoteSettings.Proofs.BatchReply
import RemoteSettings.Proofs.Format
import RemoteSettings.Proofs.Store.Deeds

/-!
# Replies that echo what was sent

A service that saves what it was sent says so by sending it back: an item that bears the id and the
value of the update, whatever else it says of the setting.  Values that were read from JSON come
back as they went, since writing them gives the JSON that they were read from.  So what is read of
an echo is what was sent.

## Main definitions

* `Update.EchoedBy`, `Updates.EchoedBy` — an item echoes an update, a body echoes updates.
* `Remote.submitted`, `Remote.EchoedBy` — what a save submits, and what echoes it.

## Main results

* `Record.eq_of_foldlM` — a part of a record is what the one member says that sets it.
* `Update.EchoedBy.decode` — what is read of an echo has the id and the value that were sent.
* `Updates.echoedBy_batchBody` — the body of a batch echoes the batch.
* `Remote.EchoedBy.commit` — **settings are received with the values that were sent**, and nothing
  else is done.
-/

namespace RemoteSettings

/-! ### Parts of records -/

namespace Record

variable {α β : Type} {r : Record α} {part : α → β} {key : String} {members : List (String × Json)}
  {start a : α}

/-- A part of a record stays what it was if no member sets it. -/
theorem eq_of_foldlM_of_not_mem
    (hkeep : ∀ a m b, m.1 ≠ key → r.setMember a m = .ok b → part b = part a)
    (hkey : key ∉ Keyed.keys members) (h : members.foldlM r.setMember start = .ok a) :
    part a = part start := by
  induction members generalizing start with
  | nil =>
    cases h
    rfl
  | cons m rest ih =>
    rw [Keyed.keys, List.map_cons, List.mem_cons, not_or] at hkey
    rw [List.foldlM_cons] at h
    obtain ⟨next, hnext, hrest⟩ := bind_eq_ok h
    rw [ih hkey.2 hrest, hkeep start m next (Ne.symm hkey.1) hnext]

/-- A part of a record is what the one member says that sets it. -/
theorem eq_of_foldlM {j : Json} {value : β}
    (hkeep : ∀ a m b, m.1 ≠ key → r.setMember a m = .ok b → part b = part a)
    (hset : ∀ a b, r.setMember a (key, j) = .ok b → part b = value)
    (hdistinct : (Keyed.keys members).Nodup) (hget : Keyed.get? key members = some j)
    (h : members.foldlM r.setMember start = .ok a) : part a = value := by
  induction members generalizing start with
  | nil => cases hget
  | cons m rest ih =>
    obtain ⟨k, i⟩ := m
    rw [Keyed.keys_cons, List.nodup_cons] at hdistinct
    rw [List.foldlM_cons] at h
    obtain ⟨next, hnext, hrest⟩ := bind_eq_ok h
    by_cases hk : k = key
    · -- No later member sets the part again.
      subst hk
      rw [Keyed.get?_cons_self] at hget
      cases hget
      rw [eq_of_foldlM_of_not_mem hkeep hdistinct.1 hrest, hset start next hnext]
    · rw [Keyed.get?_cons_of_ne hk] at hget
      exact ih hdistinct.2 hget hrest

end Record

/-! ### Settings -/

namespace Setting

/-- A member sets the id or the value if it bears that name, and else leaves them as they are. -/
theorem setMember_cases {x y : Setting} {m : String × Json} (h : record.setMember x m = .ok y) :
    (if m.1 = "id" then m.2 = .string y.id else y.id = x.id) ∧
      y.value = if m.1 = "value" then .ofJson m.2 else x.value := by
  obtain ⟨name, j⟩ := m
  rw [Record.setMember] at h
  split at h
  · simp only [record] at h
    split at h
    case h_1 =>
      obtain ⟨id, hid, h⟩ := bind_eq_ok h
      cases h
      cases j <;> cases hid
      exact ⟨rfl, rfl⟩
    case h_5 =>
      cases h
      exact ⟨rfl, rfl⟩
    case h_10 hid _ _ _ hvalue _ _ _ _ =>
      cases h
      rw [if_neg hid, if_neg hvalue]
      exact ⟨rfl, rfl⟩
    all_goals
      obtain ⟨_, -, h⟩ := bind_eq_ok h
      cases h
      exact ⟨rfl, rfl⟩
  · next hunknown =>
    cases h
    have hne : name ≠ "id" ∧ name ≠ "value" := by
      constructor <;> rintro rfl <;> exact hunknown rfl
    rw [if_neg hne.1, if_neg hne.2]
    exact ⟨rfl, rfl⟩

/-- A setting that is read of an object has the id and the value that the object gives. -/
theorem parts_of_decode {members : List (String × Json)} {x : Setting} {id : String} {j : Json}
    (hdistinct : (Keyed.keys members).Nodup)
    (hid : Keyed.get? "id" members = some (.string id))
    (hvalue : Keyed.get? "value" members = some j)
    (h : decode (.object members) = .ok x) : x.id = id ∧ x.value = .ofJson j := by
  have hread : members.foldlM record.setMember record.blank = .ok x := by
    obtain ⟨y, hy, hrest⟩ := bind_eq_ok h
    split at hrest
    · cases hrest
    · cases hrest
      exact hy
  constructor
  · refine Record.eq_of_foldlM ?_ ?_ hdistinct hid hread
    · intro y m z hname hset
      have hcases := (setMember_cases hset).1
      rwa [if_neg hname] at hcases
    · intro y z hset
      have hcases := (setMember_cases hset).1
      rw [if_pos rfl] at hcases
      exact (Json.string.inj hcases).symm
  · refine Record.eq_of_foldlM ?_ ?_ hdistinct hvalue hread
    · intro y m z hname hset
      rw [(setMember_cases hset).2, if_neg hname]
    · intro y z hset
      rw [(setMember_cases hset).2, if_pos rfl]

/-- The update that would give a setting its value. -/
def update (x : Setting) : Update := ⟨x.id, x.value⟩

end Setting

/-! ### Items that echo updates -/

/-- An item echoes an update: it is an object that reads as a setting and gives the id and the value
of the update, whatever else it says of the setting. -/
inductive Update.EchoedBy (u : Update) : Json → Prop
  | object {members : List (String × Json)} {x : Setting} (distinct : (Keyed.keys members).Nodup)
    (id : Keyed.get? "id" members = some (.string u.id))
    (value : Keyed.get? "value" members = some u.value.toJson)
    (readable : Setting.decode (.object members) = .ok x) : EchoedBy u (.object members)

/-- What is read of an echo has the id and the value that were sent. -/
theorem Update.EchoedBy.decode {u : Update} {item : Json} (h : u.EchoedBy item)
    (hu : u.value.Plain) : ∃ x, Setting.decode item = .ok x ∧ x.update = u := by
  cases h with
  | @object members x distinct id value readable =>
    obtain ⟨hid, hvalue⟩ := Setting.parts_of_decode distinct id value readable
    refine ⟨x, readable, ?_⟩
    rw [Setting.update, hid, hvalue, hu.ofJson_toJson]

/-- An update as it is written echoes itself. -/
theorem Update.echoedBy_toJson (u : Update) : u.EchoedBy u.toJson :=
  .object (by simp [Keyed.keys]) rfl rfl rfl

/-! ### Bodies that echo updates -/

/-- A body echoes updates: it lists items none of which has failed, each of which echoes one of the
updates, and each of the updates has an item that echoes it. -/
inductive Updates.EchoedBy (us : List Update) : Json → Prop
  | object {members : List (String × Json)} {items : List Json}
    (distinct : (Keyed.keys members).Nodup)
    (list : Keyed.get? "update" members = some (.array items))
    (accepted : ∀ item ∈ items, ∀ error, item.get? "error" = some error → error.isObject = false)
    (faithful : ∀ item ∈ items, ∃ u ∈ us, u.EchoedBy item)
    (complete : ∀ u ∈ us, ∃ item ∈ items, u.EchoedBy item) : EchoedBy us (.object members)

/-- The body of a batch echoes the batch. -/
theorem Updates.echoedBy_batchBody (us : List Update) : EchoedBy us (batchBody us) := by
  refine .object (List.nodup_singleton _) rfl ?_ ?_ ?_
  · intro item hitem error herror
    obtain ⟨u, -, rfl⟩ := List.mem_map.mp hitem
    cases herror
  · intro item hitem
    obtain ⟨u, hu, rfl⟩ := List.mem_map.mp hitem
    exact ⟨u, hu, u.echoedBy_toJson⟩
  · intro u hu
    exact ⟨u.toJson, List.mem_map_of_mem hu, u.echoedBy_toJson⟩

/-- What is read of an echo is settings with the ids and the values that were sent. -/
theorem Updates.EchoedBy.decode {us : List Update} {body : Json} (h : EchoedBy us body)
    (hus : ∀ u ∈ us, u.value.Plain) :
    ∃ xs : List Setting, BatchReply.decode body = .ok ⟨xs.map .updated⟩ ∧
      ∀ u, u ∈ xs.map Setting.update ↔ u ∈ us := by
  cases h with
  | @object members items distinct list accepted faithful complete =>
    have hread : ∀ item ∈ items, ∃ x, Setting.decode item = .ok x ∧ x.update ∈ us := by
      intro item hitem
      obtain ⟨u, hu, hechoed⟩ := faithful item hitem
      obtain ⟨x, hx, rfl⟩ := hechoed.decode (hus u hu)
      exact ⟨x, hx, hu⟩
    obtain ⟨xs, hxs, hmem⟩ := BatchReply.exists_mapM_decode accepted fun item hitem =>
      (hread item hitem).imp fun _ hx => hx.1
    refine ⟨xs, BatchReply.decode_of_mapM distinct list hxs, fun u => ?_⟩
    rw [List.mem_map]
    constructor
    · rintro ⟨x, hx, rfl⟩
      obtain ⟨item, hitem, hdecode⟩ := (hmem x).mp hx
      obtain ⟨y, hy, hu⟩ := hread item hitem
      rw [hdecode] at hy
      cases hy
      exact hu
    · intro hu
      obtain ⟨item, hitem, hechoed⟩ := complete u hu
      obtain ⟨x, hx, hupdate⟩ := hechoed.decode (hus u hu)
      exact ⟨x, (hmem x).mpr ⟨item, hitem, hx⟩, hupdate⟩

/-! ### Saves -/

namespace Remote

/-- The updates that a save submits. -/
def submitted : Remote → List Update
  | saveSetting _ id value => [⟨id, value⟩]
  | saveBatch _ us => us
  | _ => []

/-- A body echoes what a save submits. -/
def EchoedBy : Remote → Json → Prop
  | saveSetting _ id value, body => Update.EchoedBy ⟨id, value⟩ body
  | saveBatch _ us, body => Updates.EchoedBy us body
  | _, _ => False

/-- **Settings are received with the values that were sent**, and nothing else is done. -/
theorem EchoedBy.commit {op : Remote} {body : Json} (h : op.EchoedBy body) {g : String}
    {id : Option String} (htarget : op.target? = some (g, id))
    (hplain : ∀ u ∈ op.submitted, u.value.Plain) (hsome : op.submitted ≠ []) :
    ∃ xs, op.commit (.ok body) = ([.receiveSettings g xs], .ok xs) ∧
      ∀ u, u ∈ xs.map Setting.update ↔ u ∈ op.submitted := by
  cases op with
  | saveSetting g' id' value =>
    cases htarget
    obtain ⟨x, hx, hupdate⟩ := Update.EchoedBy.decode h (hplain _ (List.mem_singleton_self _))
    refine ⟨[x], ?_, fun u => ?_⟩
    · rw [Remote.commit, decodeReply, Except.bind, hx]
      rfl
    · rw [List.map_singleton, hupdate, submitted]
  | saveBatch g' us =>
    cases htarget
    obtain ⟨xs, hxs, hmem⟩ := Updates.EchoedBy.decode h hplain
    refine ⟨xs, ?_, hmem⟩
    have hne : xs ≠ [] := by
      rintro rfl
      exact hsome (List.eq_nil_iff_forall_not_mem.mpr fun u hu =>
        absurd ((hmem u).mpr hu) List.not_mem_nil)
    have hfailed : BatchReply.failed ⟨xs.map .updated⟩ = [] := by
      simp [BatchReply.failed, List.filterMap_map]
    have hupdated : BatchReply.updated ⟨xs.map .updated⟩ = xs := by
      simp [BatchReply.updated, List.filterMap_map]
    rw [Remote.commit, decodeReply, Except.bind, hxs]
    simp [Except.mapError, commitBatch, batchResult, hfailed, hupdated, hne]
  | _ => cases h

end Remote

end RemoteSettings
