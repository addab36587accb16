import RemoteSettings.Proofs.State.Visits

/-!
# Results are shared

A read that merges parts gives the very result of the last merging read under its key, as long as
that has not been evicted and the parts are the same; and otherwise a result that is nowhere else.
For settings and for edited ids the parts are compared by their versions.  A setting is compared by
its version too, but its edit as a value, with the edit from which the result was built; that is the
value which the result shows.

## Main definitions

* `Visit.Shared` — how the result of a merging read is related to the results before.
* `History.settingsGiven?`, `History.settingGiven?`, `History.idsGiven?` — the results of all reads.

## Main results

* `History.past_trail` — what reads give comes from the past.
* `History.shared_settings`, `History.shared_setting`, `History.shared_ids` — **the result of a
  merging read is that of the last one, or else is new.**
-/

namespace RemoteSettings

namespace Visit

variable {ι α : Type} {visits : List (Visit ι (Versioned α))} {agree : ι → Versioned α → Prop}
  {given : Versioned α → Prop} {built : α} {r : Versioned α}

/-- How the result of a read that merges parts is related to what was given before.  It is the
result of the merging read before exactly if nothing was evicted since and the parts agree with
those of that read; and if it is not, it has been built, and nothing that was given before is the
same. -/
structure Shared (visits : List (Visit ι (Versioned α))) (agree : ι → Versioned α → Prop)
    (given : Versioned α → Prop) (built : α) (r : Versioned α) : Prop where
  same_iff : ∀ before parts r₀ between, visits = before ++ .merging parts r₀ :: between →
    (∀ parts' r', .merging parts' r' ∉ between) →
    (r.same r₀ = true ↔ .evicting ∉ between ∧ agree parts r₀) ∧ (r.same r₀ = true → r = r₀)
  fresh : (¬∃ before parts r₀, visits = before ++ [.merging parts r₀] ∧ agree parts r₀) →
    r.value = built ∧ ∀ p, given p → r.same p = false

/-- A result is shared if it is the last one and the parts agree, or else is new. -/
theorem Shared.of_cases (hgiven : ∀ parts r₀, .merging parts r₀ ∈ visits → given r₀)
    (h : (∃ before parts, visits = before ++ [.merging parts r] ∧ agree parts r) ∨
      (∀ before parts r₀, visits = before ++ [.merging parts r₀] → ¬agree parts r₀) ∧
        r.value = built ∧ ∀ p, given p → r.same p = false) :
    Shared visits agree given built r where
  same_iff := by
    intro before parts r₀ between hvisits hbetween
    -- What stands in between has evicted, so either nothing does or the last visit has evicted.
    rcases List.eq_nil_or_concat between with rfl | ⟨init, v, rfl⟩
    · rcases h with ⟨before', parts', hlast, hagree⟩ | ⟨hnot, -, hnew⟩
      · obtain ⟨-, hvisit⟩ := List.append_inj' (hvisits.symm.trans hlast) rfl
        cases hvisit
        have hsame : r.same r = true := beq_self_eq_true _
        exact ⟨iff_of_true hsame ⟨List.not_mem_nil, hagree⟩, fun _ => rfl⟩
      · have hold : r.same r₀ = false := hnew r₀ (hgiven parts r₀ (by simp [hvisits]))
        rw [hold]
        exact ⟨iff_of_false Bool.false_ne_true fun hboth => hnot before parts r₀ hvisits hboth.2,
          fun hsame => absurd hsame Bool.false_ne_true⟩
    · obtain rfl : v = .evicting := by
        cases v with
        | evicting => rfl
        | merging parts' r' => exact absurd (by simp) (hbetween parts' r')
      have hold : r.same r₀ = false := by
        rcases h with ⟨before', parts', hlast, -⟩ | ⟨-, -, hnew⟩
        · have hboth : (before ++ .merging parts r₀ :: init) ++ [.evicting]
              = before' ++ [.merging parts' r] := by
            rw [← hlast, hvisits]
            simp
          cases (List.append_inj' hboth rfl).2
        · exact hnew r₀ (hgiven parts r₀ (by simp [hvisits]))
      rw [hold]
      exact ⟨iff_of_false Bool.false_ne_true fun hboth => hboth.1 (by simp),
        fun hsame => absurd hsame Bool.false_ne_true⟩
  fresh := by
    intro hnot
    rcases h with ⟨before, parts, hlast, hagree⟩ | ⟨-, hnew⟩
    · exact absurd ⟨before, parts, r, hlast, hagree⟩ hnot
    · exact hnew

end Visit

namespace History

/-! ### What reads have given -/

/-- The result of a move that reads settings. -/
def settingsGiven? (h : History) : HistoryMove → Option GroupSettings
  | .readSettings base g withEdits =>
    some (h.memo.readSettings (h.clock + 1) (h.state base) g withEdits).1
  | _ => none

/-- The result of a move that reads a setting. -/
def settingGiven? (h : History) : HistoryMove → Option (Versioned Setting)
  | .readSetting base g id withEdits =>
    (h.memo.readSetting (h.clock + 1) (h.state base) g id withEdits).1
  | _ => none

/-- The result of a move that reads edited ids. -/
def idsGiven? (h : History) : HistoryMove → Option (Versioned (List String))
  | .readEditedIds base g => some (h.memo.readEditedIds (h.clock + 1) (h.state base) g).1
  | _ => none

/-- What is merged is given. -/
theorem mem_trail_of_visit {ι ρ : Type} {visit? : History → HistoryMove → Option (Visit ι ρ)}
    {given? : History → HistoryMove → Option ρ}
    (hgiven : ∀ h m parts r, visit? h m = some (.merging parts r) → given? h m = some r)
    {parts : ι} {r : ρ} {start : History} {ms : List HistoryMove}
    (h : .merging parts r ∈ trail visit? start ms) : r ∈ trail given? start ms := by
  induction ms generalizing start with
  | nil => exact absurd h List.not_mem_nil
  | cons m ms ih =>
    rw [trail, List.mem_append, Option.mem_toList] at h ⊢
    exact h.imp (hgiven _ _ _ _) ih

theorem settingsGiven?_of_visit {g : String} {h : History} {m : HistoryMove}
    {parts : GroupSettings × GroupEdits} {r : GroupSettings}
    (hvisit : settingsVisit? g h m = some (.merging parts r)) : settingsGiven? h m = some r := by
  unfold settingsVisit? at hvisit
  split at hvisit
  · next base g' withEdits =>
    split at hvisit
    · next hg =>
      split at hvisit
      · split at hvisit
        · next hedits =>
          cases hvisit
          rw [settingsGiven?, hg, hedits]
        · cases hvisit
      · cases hvisit
    · cases hvisit
  · cases hvisit

theorem settingGiven?_of_visit {g id : String} {h : History} {m : HistoryMove}
    {parts : Versioned Setting × Value} {r : Versioned Setting}
    (hvisit : settingVisit? g id h m = some (.merging parts r)) : settingGiven? h m = some r := by
  unfold settingVisit? at hvisit
  split at hvisit
  · next base g' id' withEdits =>
    split at hvisit
    · next hkey =>
      cases hkey
      split at hvisit
      · split at hvisit
        · next hedits =>
          obtain ⟨r', hr, hsome⟩ := Option.map_eq_some_iff.mp hvisit
          cases hsome
          rw [settingGiven?, hedits, hr]
        · cases hvisit
      · cases hvisit
    · cases hvisit
  · cases hvisit

theorem idsGiven?_of_visit {g : String} {h : History} {m : HistoryMove} {q : GroupEdits}
    {r : Versioned (List String)} (hvisit : idsVisit? g h m = some (.merging q r)) :
    idsGiven? h m = some r := by
  unfold idsVisit? at hvisit
  split at hvisit
  · next base g' =>
    split at hvisit
    · next hg =>
      split at hvisit
      · cases hvisit
        rw [idsGiven?, hg]
      · cases hvisit
    · cases hvisit
  · cases hvisit

/-! ### Results come from the past -/

/-- What every move gives by its moment comes from the past. -/
theorem past_trail {α : Type} {given? : History → HistoryMove → Option (Versioned α)}
    (hgiven : ∀ h : History, h.Orderly → h.memo.Kept h.clock → ∀ m r, given? h m = some r →
      r.version.time ≤ h.clock + 1)
    (moves : List HistoryMove) (hmoves : ∀ m ∈ moves, m.proper = true) :
    ∀ r ∈ trail given? {} moves, r.version.time ≤ (after moves).clock := by
  induction moves using List.reverseRecOn with
  | nil => exact fun r hr => absurd hr List.not_mem_nil
  | append_singleton moves m ih =>
    have hbefore : ∀ m' ∈ moves, m'.proper = true := fun m' hm' =>
      hmoves m' (List.mem_append_left _ hm')
    have hclock : (after (moves ++ [m])).clock = (after moves).clock + 1 := by
      rw [after_snoc]
      cases m <;> rfl
    intro r hr
    rw [trail_snoc, List.mem_append, Option.mem_toList] at hr
    rw [hclock]
    rcases hr with hr | hr
    · exact Nat.le_succ_of_le (ih hbefore r hr)
    · exact hgiven _ (orderly_after moves hbefore) (kept_after moves) m r hr

theorem past_settingsGiven {h : History} (ho : h.Orderly) (hm : h.memo.Kept h.clock)
    (m : HistoryMove) (r : GroupSettings) (hr : settingsGiven? h m = some r) :
    r.version.time ≤ h.clock + 1 := by
  unfold settingsGiven? at hr
  split at hr
  · next base g withEdits =>
    cases hr
    have hpart : ∀ p, (h.state base).settings.value.get? g = some p →
        p.version.time ≤ h.clock + 1 := fun p hp =>
      Nat.le_succ_of_le (ho.settings.past p ⟨_, ho.state_mem base, g, hp⟩)
    have hread := h.memo.settingsRead (h.clock + 1) (h.state base) g withEdits
    generalize h.memo.readSettings (h.clock + 1) (h.state base) g withEdits = r at hread ⊢
    cases hread with
    | absent => exact Nat.zero_le _
    | unedited hp | plain hp => exact hpart _ hp
    | known _ _ hk _ => exact Nat.le_succ_of_le (hm.settings _ (Keyed.mem_of_get? hk))
    | built => exact Nat.le_refl _
  · cases hr

theorem past_settingGiven {h : History} (ho : h.Orderly) (hm : h.memo.Kept h.clock)
    (m : HistoryMove) (r : Versioned Setting) (hr : settingGiven? h m = some r) :
    r.version.time ≤ h.clock + 1 := by
  unfold settingGiven? at hr
  split at hr
  · next base g id withEdits =>
    have hpart : ∀ x, (h.state base).setting? g id = some x → x.version.time ≤ h.clock + 1 :=
      fun x hx => Nat.le_succ_of_le (ho.setting.past x ⟨_, ho.state_mem base, g, id, hx⟩)
    have hread := h.memo.settingRead (h.clock + 1) (h.state base) g id withEdits
    generalize h.memo.readSetting (h.clock + 1) (h.state base) g id withEdits = read at hread hr
    cases hread with
    | absent => cases hr
    | unedited hx | plain hx =>
      cases hr
      exact hpart _ hx
    | known _ _ hk _ =>
      cases hr
      exact Nat.le_succ_of_le (hm.setting _ (Keyed.mem_of_get? hk)).1
    | built =>
      cases hr
      exact Nat.le_refl _
  · cases hr

theorem past_idsGiven {h : History} (hm : h.memo.Kept h.clock) (m : HistoryMove)
    (r : Versioned (List String)) (hr : idsGiven? h m = some r) :
    r.version.time ≤ h.clock + 1 := by
  unfold idsGiven? at hr
  split at hr
  · next base g =>
    cases hr
    have hread := h.memo.idsRead (h.clock + 1) (h.state base) g
    generalize h.memo.readEditedIds (h.clock + 1) (h.state base) g = r at hread ⊢
    cases hread with
    | absent => exact Nat.zero_le _
    | known _ hk _ => exact Nat.le_succ_of_le (hm.ids _ (Keyed.mem_of_get? hk))
    | built => exact Nat.le_refl _
  · cases hr

/-- What bears a later moment is not the same. -/
theorem not_same_of_past {α : Type} {r p : Versioned α} {clock : Nat}
    (hr : r.version.time = clock + 1) (hp : p.version.time ≤ clock) : r.same p = false := by
  have hne : r.version ≠ p.version := by
    intro heq
    rw [heq] at hr
    omega
  exact beq_false_of_ne hne

/-! ### Results of merging reads -/

section Merging

variable {moves : List HistoryMove} (hmoves : ∀ m ∈ moves, m.proper = true) {s : State}
  {g id : String}

include hmoves

/-- Settings with their edits are shared. -/
theorem shared_settings {p : GroupSettings} {q : GroupEdits}
    (hp : s.settings.value.get? g = some p) (hq : s.edits.value.get? g = some q) :
    let h := after moves
    Visit.Shared (trail (settingsVisit? g) {} moves)
      (fun parts _ => p.same parts.1 = true ∧ q.same parts.2 = true)
      (fun r => Among State.HasSettings h.states r ∨ r ∈ trail settingsGiven? {} moves)
      (Memo.merge (h.clock + 1) p.value q.value)
      (h.memo.readSettings (h.clock + 1) s g true).1 := by
  intro h
  have ho : h.Orderly := orderly_after moves hmoves
  have hrecalls := recalls_after (fun m => m.settings.get? g) rfl
    (fun h hm m => turns_settings hm g m) moves
  refine .of_cases (fun _ _ hvisit => Or.inr (mem_trail_of_visit
    (fun _ _ _ _ => settingsGiven?_of_visit) hvisit)) ?_
  have hread := h.memo.settingsRead (h.clock + 1) s g true
  generalize h.memo.readSettings (h.clock + 1) s g true = read at hread ⊢
  cases hread with
  | absent hp' => cases hp'.symm.trans hp
  | unedited _ hq' => cases hq'.symm.trans hq
  | known hp' hq' hk hsame =>
    cases hp'.symm.trans hp
    cases hq'.symm.trans hq
    rw [hk] at hrecalls
    obtain ⟨before, parts, r, hlast, hsettings, hedits, rfl⟩ := hrecalls
    refine Or.inl ⟨before, parts, hlast, ?_, ?_⟩
    · exact beq_iff_eq.mpr (hsame.1.symm.trans hsettings)
    · exact beq_iff_eq.mpr (hsame.2.symm.trans hedits)
  | built hp' hq' hother =>
    cases hp'.symm.trans hp
    cases hq'.symm.trans hq
    refine Or.inr ⟨fun before parts r₀ hlast hagree => ?_, rfl, fun r hr => ?_⟩
    · -- If the parts agreed with those of the last visit, what it left would have been found.
      cases hk : h.memo.settings.get? g with
      | none =>
        rw [hk] at hrecalls
        exact hrecalls before parts r₀ hlast
      | some k =>
        rw [hk] at hrecalls
        obtain ⟨_, _, _, hlast', hsettings, hedits, -⟩ := hrecalls
        cases (List.append_inj' (hlast.symm.trans hlast') rfl).2
        exact hother k hk ⟨hsettings.trans (beq_iff_eq.mp hagree.1).symm,
          hedits.trans (beq_iff_eq.mp hagree.2).symm⟩
    · refine not_same_of_past rfl (hr.elim (ho.settings.past r) fun hr => ?_)
      exact past_trail (fun _ ho hm m r => past_settingsGiven ho hm m r) moves hmoves r hr

/-- A setting with its edit is shared. -/
theorem shared_setting {x : Versioned Setting} {e : Value} (hx : s.setting? g id = some x)
    (he : s.edit? g id = some e) :
    let h := after moves
    ∃ r, (h.memo.readSetting (h.clock + 1) s g id true).1 = some r ∧
      Visit.Shared (trail (settingVisit? g id) {} moves)
        (fun parts r₀ => x.same parts.1 = true ∧ (r₀.value.value == e) = true)
        (fun r => Among State.HasSetting h.states r ∨ r ∈ trail settingGiven? {} moves)
        (x.value.withValue e) r := by
  intro h
  have ho : h.Orderly := orderly_after moves hmoves
  have hrecalls := recalls_after (fun m => m.setting.get? (g, id)) rfl
    (fun h hm m => turns_setting hm g id m) moves
  have hgiven : ∀ (parts : Versioned Setting × Value) r₀,
      .merging parts r₀ ∈ trail (settingVisit? g id) {} moves →
      Among State.HasSetting h.states r₀ ∨ r₀ ∈ trail settingGiven? {} moves :=
    fun _ _ hvisit => Or.inr (mem_trail_of_visit (fun _ _ _ _ => settingGiven?_of_visit) hvisit)
  have hread := h.memo.settingRead (h.clock + 1) s g id true
  generalize h.memo.readSetting (h.clock + 1) s g id true = read at hread ⊢
  cases hread with
  | absent hx' => cases hx'.symm.trans hx
  | unedited _ he' => cases he'.symm.trans he
  | @known _ _ k hx' he' hk hsame =>
    cases hx'.symm.trans hx
    cases he'.symm.trans he
    rw [hk] at hrecalls
    obtain ⟨before, parts, r, hlast, hsetting, hedit, rfl⟩ := hrecalls
    refine ⟨_, rfl, .of_cases hgiven (Or.inl ⟨before, parts, hlast, ?_, ?_⟩)⟩
    · exact beq_iff_eq.mpr (hsame.1.symm.trans hsetting)
    · exact hedit ▸ hsame.2
  | built hx' he' hother =>
    cases hx'.symm.trans hx
    cases he'.symm.trans he
    refine ⟨_, rfl, .of_cases hgiven (Or.inr ⟨fun before parts r₀ hlast hagree => ?_, rfl,
      fun r hr => ?_⟩)⟩
    · cases hk : h.memo.setting.get? (g, id) with
      | none =>
        rw [hk] at hrecalls
        exact hrecalls before parts r₀ hlast
      | some k =>
        rw [hk] at hrecalls
        obtain ⟨_, _, _, hlast', hsetting, hedit, -⟩ := hrecalls
        cases (List.append_inj' (hlast.symm.trans hlast') rfl).2
        exact hother k hk ⟨hsetting.trans (beq_iff_eq.mp hagree.1).symm, hedit ▸ hagree.2⟩
    · refine not_same_of_past rfl (hr.elim (ho.setting.past r) fun hr => ?_)
      exact past_trail (fun _ ho hm m r => past_settingGiven ho hm m r) moves hmoves r hr

/-- Edited ids are shared. -/
theorem shared_ids {q : GroupEdits} (hq : s.edits.value.get? g = some q) :
    let h := after moves
    Visit.Shared (trail (idsVisit? g) {} moves) (fun q₀ _ => q.same q₀ = true)
      (· ∈ trail idsGiven? {} moves) q.value.keys
      (h.memo.readEditedIds (h.clock + 1) s g).1 := by
  intro h
  have hrecalls := recalls_after (fun m => m.editedIds.get? g) rfl
    (fun h hm m => turns_ids hm g m) moves
  refine .of_cases (fun _ _ hvisit => mem_trail_of_visit
    (fun _ _ _ _ => idsGiven?_of_visit) hvisit) ?_
  have hread := h.memo.idsRead (h.clock + 1) s g
  generalize h.memo.readEditedIds (h.clock + 1) s g = read at hread ⊢
  cases hread with
  | absent hq' => cases hq'.symm.trans hq
  | known hq' hk hsame =>
    cases hq'.symm.trans hq
    rw [hk] at hrecalls
    obtain ⟨before, q₀, r, hlast, hedits, rfl⟩ := hrecalls
    exact Or.inl ⟨before, q₀, hlast, beq_iff_eq.mpr (hsame.symm.trans hedits)⟩
  | built hq' hother =>
    cases hq'.symm.trans hq
    refine Or.inr ⟨fun before q₀ r₀ hlast hagree => ?_, rfl, fun r hr => ?_⟩
    · cases hk : h.memo.editedIds.get? g with
      | none =>
        rw [hk] at hrecalls
        exact hrecalls before q₀ r₀ hlast
      | some k =>
        rw [hk] at hrecalls
        obtain ⟨_, _, _, hlast', hedits, -⟩ := hrecalls
        cases (List.append_inj' (hlast.symm.trans hlast') rfl).2
        exact hother k hk (hedits.trans (beq_iff_eq.mp hagree).symm)
    · exact not_same_of_past rfl
        (past_trail (fun _ _ hm m r => past_idsGiven hm m r) moves hmoves r hr)

end Merging

end History

end RemoteSettings
