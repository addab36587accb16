import Mathlib.Data.List.Induction
import RemoteSettings.Proofs.Scope
import RemoteSettings.Proofs.Store.Custody

/-!
# Deeds in order

A task does up to two deeds: it sends its request, and then it commits the reply or is dropped.  In
between its operation is under way.  Deeds are in order if a request is sent only while nothing is
under way that clashes with it, and only what is under way is committed or dropped; operations that
are under way together then never clash.

## Main definitions

* `Remote.Overlaps`, `Remote.Clash` — operations on the same settings, of which one is a save.
* `UnderWay` — a task has sent its request and has neither committed the reply nor been dropped.
* `Orderly` — deeds each of which could be done when it was done.

## Main results

* `Needs.not_clash` — operations with compatible locks do not clash.
* `Orderly.no_clash` — operations that are under way together do not clash.
-/

namespace RemoteSettings

namespace Remote

/-- What an operation is about: all settings of a group, or one of them. -/
def target? : Remote → Option (String × Option String)
  | fetchGroups => none
  | fetchSettings group => some (group, none)
  | fetchSetting group id => some (group, some id)
  | saveSetting group id _ => some (group, some id)
  | saveBatch group _ => some (group, none)

/-- Whether an operation changes what the service has. -/
def isSave : Remote → Bool
  | saveSetting _ _ _ => true
  | saveBatch _ _ => true
  | _ => false

/-- An operation is about a setting. -/
def Covers (op : Remote) (group id : String) : Prop :=
  ∃ i, op.target? = some (group, i) ∧ (i = none ∨ i = some id)

/-- Two operations are about the same group, and one is about all of it or both are about the same
setting. -/
def Overlaps (a b : Remote) : Prop :=
  ∃ group i j, a.target? = some (group, i) ∧ b.target? = some (group, j) ∧
    (i = none ∨ j = none ∨ i = j)

/-- Two operations overlap and one of them is a save. -/
def Clash (a b : Remote) : Prop := a.Overlaps b ∧ (a.isSave = true ∨ b.isSave = true)

theorem Overlaps.symm {a b : Remote} (h : a.Overlaps b) : b.Overlaps a := by
  obtain ⟨g, i, j, ha, hb, hij⟩ := h
  refine ⟨g, j, i, hb, ha, ?_⟩
  rcases hij with hi | hj | hij
  · exact Or.inr (Or.inl hi)
  · exact Or.inl hj
  · exact Or.inr (Or.inr hij.symm)

theorem Clash.symm {a b : Remote} (h : a.Clash b) : b.Clash a := ⟨h.1.symm, h.2.symm⟩

/-- The scope of what an operation is about. -/
def scopeOf : String × Option String → Scope
  | (group, none) => .ofGroup group
  | (group, some id) => .ofSetting group id

/-- An operation needs a lock on what it is about, exclusive if it is a save. -/
theorem lock?_eq (op : Remote) : op.lock? = op.target?.map fun t =>
    (scopeOf t, if op.isSave then .exclusive else .shared) := by
  cases op <;> rfl

theorem scopeOf_overlaps {g : String} {i j : Option String} (h : i = none ∨ j = none ∨ i = j) :
    (scopeOf (g, i)).overlaps (scopeOf (g, j)) = true := by
  cases i with
  | none =>
    cases j with
    | none => exact Scope.ofGroup_overlaps_ofGroup.mpr rfl
    | some j => exact Scope.ofGroup_overlaps_ofSetting.mpr rfl
  | some i =>
    cases j with
    | none => exact Scope.ofSetting_overlaps_ofGroup.mpr rfl
    | some j => exact Scope.ofSetting_overlaps_ofSetting.mpr ⟨rfl, by simpa using h⟩

/-- Whoever needs a lock for something has it, with the mode that the operation needs. -/
theorem Needs.eq_some {op : Remote} {name : String} {lock : Option Lock} (h : op.Needs name lock)
    {t : String × Option String} (ht : op.target? = some t) :
    ∃ l, lock = some l ∧ l.store = name ∧ l.scope = scopeOf t ∧
      (op.isSave = true → l.mode = .exclusive) := by
  have hlock := op.lock?_eq
  rw [ht] at hlock
  cases lock with
  | none => cases h.symm.trans hlock
  | some l =>
    obtain ⟨hscope, hmode⟩ := Prod.mk.inj (Option.some.inj (h.2.symm.trans hlock))
    refine ⟨l, rfl, h.1, hscope, fun hsave => ?_⟩
    rw [hmode, if_pos hsave]

/-- Operations with compatible locks do not clash. -/
theorem Needs.not_clash {a b : Remote} {name : String} {lock lock' : Option Lock}
    (ha : a.Needs name lock) (hb : b.Needs name lock')
    (hcompatible : ∀ l l', lock = some l → lock' = some l' → l.Compatible l') : ¬a.Clash b := by
  rintro ⟨⟨g, i, j, hi, hj, hij⟩, hsave⟩
  obtain ⟨l, rfl, hstore, hscope, hmode⟩ := ha.eq_some hi
  obtain ⟨l', rfl, hstore', hscope', hmode'⟩ := hb.eq_some hj
  have hoverlap : l.scope.overlaps l'.scope = true := by
    rw [hscope, hscope']
    exact scopeOf_overlaps hij
  -- Compatible locks that overlap are both shared, but a save needs an exclusive one.
  obtain ⟨hshared, hshared'⟩ :=
    hcompatible l l' rfl rfl (hstore.trans hstore'.symm) hoverlap
  rcases hsave with hsave | hsave
  · cases hshared.symm.trans (hmode hsave)
  · cases hshared'.symm.trans (hmode' hsave)

end Remote

/-! ### Deeds -/

/-- The task that did a deed. -/
def Deed.task : Deed → Nat
  | sent n _ => n
  | committed n _ _ => n
  | dropped n _ => n

/-- The request that was sent with a deed. -/
def Deed.request? (e : Endpoints) : Deed → Option Request
  | sent _ op => some (op.request e)
  | _ => none

/-- A task has sent a request and has neither committed the reply nor been dropped. -/
def UnderWay (ds : List Deed) (n : Nat) (op : Remote) : Prop :=
  .sent n op ∈ ds ∧ (∀ op' reply, .committed n op' reply ∉ ds) ∧ ∀ op', .dropped n op' ∉ ds

/-- What may be done after deeds: a request is sent by a task that has done nothing yet, if it
clashes with nothing that is under way; and only what is under way is committed or dropped. -/
def Deed.MayFollow (ds : List Deed) : Deed → Prop
  | sent n op => (∀ d ∈ ds, d.task ≠ n) ∧ ∀ m op', UnderWay ds m op' → ¬op'.Clash op
  | committed n op _ => UnderWay ds n op
  | dropped n op => UnderWay ds n op

/-- Deeds each of which could be done when it was done. -/
def Orderly (ds : List Deed) : Prop := ∀ pre d, pre ++ [d] <+: ds → d.MayFollow pre

theorem Orderly.nil : Orderly [] := by
  intro pre d h
  exact absurd (List.prefix_nil.mp h) (by simp)

theorem Orderly.snoc {ds : List Deed} {d : Deed} (h : Orderly ds) (hd : d.MayFollow ds) :
    Orderly (ds ++ [d]) := by
  intro pre d' hpre
  rcases List.prefix_concat_iff.mp hpre with heq | hpre
  · obtain ⟨rfl, hlast⟩ := List.append_inj' heq rfl
    rwa [List.singleton_inj.mp hlast]
  · exact h pre d' hpre

theorem Orderly.of_prefix {ds es : List Deed} (h : Orderly es) (hpre : ds <+: es) : Orderly ds :=
  fun pre d hd => h pre d (hd.trans hpre)

/-- What is under way after one more deed was under way before, unless it has just been sent. -/
theorem UnderWay.of_snoc {ds : List Deed} {d : Deed} {n : Nat} {op : Remote}
    (h : UnderWay (ds ++ [d]) n op) : UnderWay ds n op ∨ d = .sent n op := by
  obtain ⟨hsent, hcommitted, hdropped⟩ := h
  rcases List.mem_append.mp hsent with hsent | hsent
  · exact Or.inl ⟨hsent, fun op' reply hmem => hcommitted op' reply (List.mem_append_left _ hmem),
      fun op' hmem => hdropped op' (List.mem_append_left _ hmem)⟩
  · exact Or.inr (List.mem_singleton.mp hsent).symm

/-- A deed does not matter to what other tasks have under way. -/
theorem underWay_snoc_of_ne {ds : List Deed} {d : Deed} {n : Nat} (h : d.task ≠ n) {op : Remote} :
    UnderWay (ds ++ [d]) n op ↔ UnderWay ds n op := by
  -- A task's operation is judged by its own deeds only, and this is not one of them.
  have hmem : ∀ e : Deed, e.task = n → (e ∈ ds ++ [d] ↔ e ∈ ds) := by
    intro e he
    have hne : e ≠ d := by
      rintro rfl
      exact h he
    simp [hne]
  simp only [UnderWay, hmem (.sent n _) rfl, hmem (.committed n _ _) rfl, hmem (.dropped n _) rfl]

/-- What a task has sent is under way, if it has done nothing before. -/
theorem underWay_sent {ds : List Deed} {n : Nat} (h : ∀ d ∈ ds, d.task ≠ n) {op op' : Remote} :
    UnderWay (ds ++ [.sent n op]) n op' ↔ op' = op := by
  have hnot : ∀ d : Deed, d.task = n → d ∉ ds := fun d hd hmem => h d hmem hd
  simp [UnderWay, hnot (.sent n _) rfl, hnot (.committed n _ _) rfl, hnot (.dropped n _) rfl]

theorem not_underWay_committed {ds : List Deed} {n : Nat} {op op' : Remote} {reply : Reply} :
    ¬UnderWay (ds ++ [.committed n op reply]) n op' :=
  fun h => h.2.1 op reply (List.mem_append_right _ (List.mem_singleton_self _))

theorem not_underWay_dropped {ds : List Deed} {n : Nat} {op op' : Remote} :
    ¬UnderWay (ds ++ [.dropped n op]) n op' :=
  fun h => h.2.2 op (List.mem_append_right _ (List.mem_singleton_self _))

/-- Operations that are under way together do not clash. -/
theorem Orderly.no_clash {ds : List Deed} (h : Orderly ds) {m n : Nat} {op op' : Remote}
    (hn : UnderWay ds n op) (hm : UnderWay ds m op') (hne : m ≠ n) : ¬op'.Clash op := by
  -- Two operations come together with the deed that sends the later one, so the induction is on the
  -- last deed.
  induction ds using List.reverseRecOn with
  | nil => exact absurd hn.1 List.not_mem_nil
  | append_singleton ds d ih =>
    have hd : d.MayFollow ds := h ds d List.prefix_rfl
    rcases hn.of_snoc with hn' | rfl
    · rcases hm.of_snoc with hm' | rfl
      · exact ih (h.of_prefix (List.prefix_append ds [d])) hn' hm'
      · exact fun hclash => hd.2 n op hn' hclash.symm
    · rcases hm.of_snoc with hm' | hm'
      · exact hd.2 m op' hm'
      · exact absurd (Deed.sent.inj hm').1.symm hne

end RemoteSettings
