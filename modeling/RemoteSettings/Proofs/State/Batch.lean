import RemoteSettings.BatchReply
import RemoteSettings.Proofs.State.Kept

/-!
# What a batch save does to the state

The settings of a batch that were refused get their errors one after another, and then those that
were saved are received.  A setting may be both refused and saved, and each more than once: then
it counts as saved, with the value that was reported last.

## Main definitions

* `State.SameButFlags` — two states differ in saving flags only.
* `State.Refused`, `State.Received` — what settings that were refused or saved do to the state.
* `State.Settled` — what a reply to a batch does to the state.
* `State.Unread` — what a batch does to the state if there is no reply that can be read.

## Main results

* `refused_reduce`, `received_reduce` — what one action does.
* `Settled.of_refused` — **what was refused and what was saved is settled.**
-/

namespace RemoteSettings.State

variable {s t u : State} {g h : String} {e : Failure}

/-! ### Saving flags -/

/-- Two states differ in saving flags only. -/
structure SameButFlags (s s' : State) : Prop where
  groups : s'.groups = s.groups
  settings : s'.settings = s.settings
  edits : s'.edits = s.edits
  errors : s'.errors = s.errors

theorem sameButFlags_setSaving (s : State) (now : Nat) (g : String) (id : Option String)
    (saving : Bool) : SameButFlags s (s.reduce now (.setSaving g id saving)) := by
  cases id with
  | none =>
    rw [reduce]
    split <;> exact ⟨rfl, rfl, rfl, rfl⟩
  | some id =>
    rw [reduce]
    split <;> exact ⟨rfl, rfl, rfl, rfl⟩

namespace SameButFlags

theorem setting? (hs : SameButFlags s t) (group id : String) :
    t.setting? group id = s.setting? group id := by
  rw [State.setting?, State.setting?, hs.settings]

theorem edit? (hs : SameButFlags s t) (group id : String) :
    t.edit? group id = s.edit? group id := by
  rw [State.edit?, State.edit?, hs.edits]

theorem error? (hs : SameButFlags s t) (group : String) (key : ErrorKey) :
    t.error? group key = s.error? group key := by
  rw [State.error?, State.error?, hs.errors]

theorem sameOf (hs : SameButFlags s t) (h : String) : SameOf h s t where
  settings := by rw [hs.settings]
  edits := by rw [hs.edits]
  errors := by rw [hs.errors]

end SameButFlags

/-! ### Settings that were refused -/

/-- The error of what was refused: the one that was named last. -/
def refusal? (failed : List RejectedSetting) : ErrorKey → Option Failure
  | .all => none
  | .setting id => (failed.findRev? (·.id == id)).map fun f => .rejected none f.rejection

theorem refusal?_cons (f : RejectedSetting) (failed : List RejectedSetting) (key : ErrorKey) :
    refusal? (f :: failed) key
      = (refusal? failed key).or
          (if errorKey (some f.id) = key then some (.rejected none f.rejection) else none) := by
  cases key with
  | all => rfl
  | setting id =>
    rw [refusal?, refusal?, findRev?_cons, errorKey, Option.map_or]
    by_cases hid : f.id = id
    · rw [if_pos (beq_iff_eq.mpr hid), if_pos (by rw [hid])]
      rfl
    · rw [if_neg (by simpa using hid), if_neg (by simpa using hid)]
      rfl

/-- What is not named has not been refused. -/
theorem refusal?_eq_none {failed : List RejectedSetting} {id : String}
    (hid : id ∉ failed.map (·.id)) : refusal? failed (.setting id) = none := by
  rw [refusal?, List.findRev?_eq_find?_reverse, Option.map_eq_none_iff, List.find?_eq_none]
  intro f hf
  have hne : f.id ≠ id := fun heq => hid (heq ▸ List.mem_map_of_mem (List.mem_reverse.mp hf))
  simpa using hne

/-- Settings that were refused have their errors, and nothing else has changed. -/
structure Refused (g : String) (failed : List RejectedSetting) (s s' : State) : Prop where
  groups : s'.groups = s.groups
  settings : s'.settings = s.settings
  edits : s'.edits = s.edits
  others : ∀ h, h ≠ g → SameOf h s s'
  errors : ∀ key, s'.error? g key = (refusal? failed key).or (s.error? g key)

theorem Refused.nil (g : String) (s : State) : Refused g [] s s where
  groups := rfl
  settings := rfl
  edits := rfl
  others h _ := SameOf.refl h s
  errors key := by cases key <;> rfl

theorem refused_reduce (hs : s.Kept) (now : Nat) (g : String) (f : RejectedSetting) :
    Refused g [f] s
      (s.reduce now (.setError g (some f.id) (some (.rejected none f.rejection)))) where
  groups := rfl
  settings := rfl
  edits := rfl
  others h hne := sameOf_reduce hs fun hg => hne (Option.some.inj hg).symm
  errors key := by
    have hnil : refusal? [] key = none := by cases key <;> rfl
    rw [error?_setError hs, refusal?_cons, hnil, Option.none_or]
    by_cases hkey : errorKey (some f.id) = key
    · rw [if_pos ⟨rfl, hkey⟩, if_pos hkey, Option.some_or]
    · rw [if_neg fun hboth => hkey hboth.2, if_neg hkey, Option.none_or]

/-- Of several refusals of one setting the last counts. -/
theorem Refused.cons {f : RejectedSetting} {failed : List RejectedSetting}
    (hfirst : Refused g [f] s t) (hrest : Refused g failed t u) :
    Refused g (f :: failed) s u where
  groups := hrest.groups.trans hfirst.groups
  settings := hrest.settings.trans hfirst.settings
  edits := hrest.edits.trans hfirst.edits
  others h hne := (hfirst.others h hne).trans (hrest.others h hne)
  errors key := by
    have hnil : refusal? [] key = none := by cases key <;> rfl
    have hone := hfirst.errors key
    rw [refusal?_cons, hnil, Option.none_or] at hone
    rw [hrest.errors, hone, refusal?_cons, Option.or_assoc]

/-! ### Settings that were saved -/

/-- Settings that were reported have their last reported values, without edits and errors, and
nothing else has changed. -/
structure Received (g : String) (saved : List Setting) (s s' : State) : Prop where
  groups : s'.groups = s.groups
  others : ∀ h, h ≠ g → SameOf h s s'
  values : ∀ id, (s'.setting? g id).map (·.value)
    = (saved.findRev? (·.id == id)).or ((s.setting? g id).map (·.value))
  settings : ∀ id, id ∉ saved.map (·.id) → s'.setting? g id = s.setting? g id
  edits : ∀ id, s'.edit? g id = if id ∈ saved.map (·.id) then none else s.edit? g id
  errors : ∀ key,
    s'.error? g key = if key ∈ saved.map (fun x => .setting x.id) then none else s.error? g key

theorem Received.nil (g : String) (s : State) : Received g [] s s where
  groups := rfl
  others h _ := SameOf.refl h s
  values _ := rfl
  settings _ _ := rfl
  edits _ := rfl
  errors _ := rfl

theorem received_reduce (hs : s.Kept) (now : Nat) (g : String) (saved : List Setting) :
    Received g saved s (s.reduce now (.receiveSettings g saved)) where
  groups := rfl
  others h hne := sameOf_reduce hs fun hg => hne (Option.some.inj hg).symm
  values id := by rw [setting?_receiveSettings, if_pos rfl]
  settings id hid := by
    refine setting?_reduce ?_ now s
    rintro - x hx rfl
    exact hid (List.mem_map_of_mem hx)
  edits id := by
    rw [edit?_receiveSettings hs]
    simp only [true_and]
  errors key := by
    rw [error?_receiveSettings hs]
    simp only [true_and]

/-- Saving flags do not count. -/
theorem Received.congr {s' : State} {saved : List Setting} (hreceived : Received g saved t u)
    (hs : SameButFlags s t) (hs' : SameButFlags u s') : Received g saved s s' where
  groups := by rw [hs'.groups, hreceived.groups, hs.groups]
  others h hne := ((hs.sameOf h).trans (hreceived.others h hne)).trans (hs'.sameOf h)
  values id := by rw [hs'.setting?, hreceived.values, hs.setting?]
  settings id hid := by rw [hs'.setting?, hreceived.settings id hid, hs.setting?]
  edits id := by rw [hs'.edit?, hreceived.edits, hs.edit?]
  errors key := by rw [hs'.error?, hreceived.errors, hs.error?]

/-! ### Batches -/

/-- What a reply to a batch does to the state.  Settings that were saved, be it after a refusal,
have the values that were reported last, and neither edits nor errors; settings that were only
refused have the errors that were named last; everything else is as it was. -/
structure Settled (g : String) (r : BatchReply) (s s' : State) : Prop where
  groups : s'.groups = s.groups
  others : ∀ h, h ≠ g → SameOf h s s'
  all : s'.error? g .all = s.error? g .all
  saved : ∀ id ∈ r.updated.map (·.id),
    (∃ x, r.updated.findRev? (·.id == id) = some x
        ∧ (s'.setting? g id).map (·.value) = some x)
      ∧ s'.edit? g id = none ∧ s'.error? g (.setting id) = none
  refused : ∀ id, id ∉ r.updated.map (·.id) → id ∈ r.failed.map (·.id) →
    s'.setting? g id = s.setting? g id ∧ s'.edit? g id = s.edit? g id
      ∧ ∃ f, r.failed.findRev? (·.id == id) = some f
          ∧ s'.error? g (.setting id) = some (.rejected none f.rejection)
  untouched : ∀ id, id ∉ r.updated.map (·.id) → id ∉ r.failed.map (·.id) →
    s'.setting? g id = s.setting? g id ∧ s'.edit? g id = s.edit? g id
      ∧ s'.error? g (.setting id) = s.error? g (.setting id)

/-- **What was refused and what was saved is settled.** -/
theorem Settled.of_refused {r : BatchReply} (hrefused : Refused g r.failed s t)
    (hreceived : Received g r.updated t u) : Settled g r s u := by
  have hsettings : ∀ id, t.setting? g id = s.setting? g id := by
    intro id
    rw [State.setting?, State.setting?, hrefused.settings]
  have hedits : ∀ id, t.edit? g id = s.edit? g id := by
    intro id
    rw [State.edit?, State.edit?, hrefused.edits]
  have hkey : ∀ id, ErrorKey.setting id ∈ r.updated.map (fun x => ErrorKey.setting x.id) ↔
      id ∈ r.updated.map (·.id) := by simp
  -- Settings that were not saved are as the refusals left them.
  have hunsaved : ∀ id, id ∉ r.updated.map (·.id) →
      u.setting? g id = s.setting? g id ∧ u.edit? g id = s.edit? g id ∧
        u.error? g (.setting id)
          = (refusal? r.failed (.setting id)).or (s.error? g (.setting id)) := by
    intro id hid
    refine ⟨?_, ?_, ?_⟩
    · rw [hreceived.settings id hid, hsettings]
    · rw [hreceived.edits, if_neg hid, hedits]
    · rw [hreceived.errors, if_neg fun h => hid ((hkey id).mp h), hrefused.errors]
  refine
    { groups := hreceived.groups.trans hrefused.groups
      others := fun h hne => (hrefused.others h hne).trans (hreceived.others h hne)
      all := ?_, saved := ?_, refused := ?_, untouched := ?_ }
  · rw [hreceived.errors, if_neg (by simp), hrefused.errors]
    rfl
  · intro id hid
    obtain ⟨x, hx⟩ := exists_findRev?_of_mem hid
    refine ⟨⟨x, hx, ?_⟩, ?_, ?_⟩
    · rw [hreceived.values, hx, Option.some_or]
    · rw [hreceived.edits, if_pos hid]
    · rw [hreceived.errors, if_pos ((hkey id).mpr hid)]
  · intro id hid hfailed
    obtain ⟨hsetting, hedit, herror⟩ := hunsaved id hid
    obtain ⟨f, hf⟩ := exists_findRev?_of_mem hfailed
    refine ⟨hsetting, hedit, f, hf, ?_⟩
    rw [herror, refusal?, hf]
    rfl
  · intro id hid hfailed
    obtain ⟨hsetting, hedit, herror⟩ := hunsaved id hid
    refine ⟨hsetting, hedit, ?_⟩
    rw [herror, refusal?_eq_none hfailed, Option.none_or]

/-- Saving flags do not count. -/
theorem Settled.congr {r : BatchReply} {s' : State} (hsettled : Settled g r t u)
    (hs : SameButFlags s t) (hs' : SameButFlags u s') : Settled g r s s' where
  groups := by rw [hs'.groups, hsettled.groups, hs.groups]
  others h hne := ((hs.sameOf h).trans (hsettled.others h hne)).trans (hs'.sameOf h)
  all := by rw [hs'.error?, hsettled.all, hs.error?]
  saved id hid := by
    rw [hs'.setting?, hs'.edit?, hs'.error?]
    exact hsettled.saved id hid
  refused id hid hfailed := by
    rw [hs'.setting?, hs'.edit?, hs'.error?, ← hs.setting?, ← hs.edit?]
    exact hsettled.refused id hid hfailed
  untouched id hid hfailed := by
    rw [hs'.setting?, hs'.edit?, hs'.error?, ← hs.setting?, ← hs.edit?, ← hs.error?]
    exact hsettled.untouched id hid hfailed

/-- What a batch does to the state if there is no reply that can be read: the failure is an error of
the group, unless it says itself that a part of a batch succeeded. -/
structure Unread (g : String) (e : Failure) (s s' : State) : Prop where
  groups : s'.groups = s.groups
  settings : s'.settings = s.settings
  edits : s'.edits = s.edits
  errors : ∀ h key, s'.error? h key
    = if h = g ∧ key = .all ∧ e.isPartial = false then some e else s.error? h key

theorem Unread.of_partial (he : e.isPartial = true) (g : String) (s : State) : Unread g e s s where
  groups := rfl
  settings := rfl
  edits := rfl
  errors h key := by simp [he]

theorem unread_reduce (hs : s.Kept) (he : e.isPartial = false) (now : Nat) (g : String) :
    Unread g e s (s.reduce now (.setError g none (some e))) where
  groups := rfl
  settings := rfl
  edits := rfl
  errors h key := by
    rw [error?_setError hs]
    simp [errorKey, he, eq_comm]

/-- Saving flags do not count. -/
theorem Unread.congr {s' : State} (hunread : Unread g e t u) (hs : SameButFlags s t)
    (hs' : SameButFlags u s') : Unread g e s s' where
  groups := by rw [hs'.groups, hunread.groups, hs.groups]
  settings := by rw [hs'.settings, hunread.settings, hs.settings]
  edits := by rw [hs'.edits, hunread.edits, hs.edits]
  errors h key := by rw [hs'.error?, hunread.errors, hs.error?]

end RemoteSettings.State
