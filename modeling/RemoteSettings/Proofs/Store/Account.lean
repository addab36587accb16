import RemoteSettings.Proofs.Store.Attempts
import RemoteSettings.Proofs.Store.Cells

/-!
# Attempts tell where tasks stand

What tasks have done with cells is in order: a run is begun only by whoever has it, and nobody has
it once a run has ended.  A run is in flight exactly while its task runs the resolver, and a cell
has an outcome exactly if a run has ended with it; and that is what came of the reply which the task
has committed.

## Main definitions

* `Roster.outcome?` — how the run for a cell has ended.
* `Roster.Accounted` — the invariant that ties attempts to tasks and cells.
* `Roster.Sound` — all invariants of the roster.

## Main results

* `Accounted.step` — every step keeps it.
* `Sound.after` — all that is kept of the roster of a run.
-/

namespace RemoteSettings

/-- The task has tried something at a cell, if it ever comes to one. -/
def Stand.HasTried : Stand → Prop
  | .running _ _ _ => True
  | .over => True
  | _ => False

namespace Roster

variable {r u : Roster} {n c : Nat} {key : ResolverKey}

/-- How the run for a cell has ended. -/
def outcome? (r : Roster) (c : Nat) : Option (Except Failure Unit) := r.cells[c]?.bind (·.outcome)

theorem outcome?_eq {cell : Cell} (h : r.cells[c]? = some cell) : r.outcome? c = cell.outcome := by
  rw [outcome?, h]
  rfl

@[simp] theorem outcome?_tried (a : Attempt) (c : Nat) :
    (r.tried a).outcome? c = r.outcome? c := rfl

/-- What leaves the outcome of a cell as it is leaves all. -/
theorem outcome?_modify {f : Cell → Cell} (hf : ∀ cell, (f cell).outcome = cell.outcome)
    (c c' : Nat) :
    (r.modify c f).outcome? c' = r.outcome? c' := by
  rw [outcome?, outcome?, modify, List.getElem?_modify]
  cases r.cells[c']? with
  | none => rfl
  | some cell => by_cases hc : c = c' <;> simp [hc, hf]

theorem outcome?_settled {cell : Cell} (h : r.cells[c]? = some cell) (outcome : Except Failure Unit)
    (c' : Nat) : (r.modify c fun _ => .settled outcome).outcome? c'
      = if c' = c then some outcome else r.outcome? c' := by
  rw [outcome?, outcome?, modify, List.getElem?_modify]
  by_cases hc : c' = c
  · subst hc
    simp [h, Cell.settled]
  · simp [hc, Ne.symm hc]

theorem outcome_awaitedBy (n : Nat) (cell : Cell) : (cell.awaitedBy n).outcome = cell.outcome := by
  rw [Cell.awaitedBy]
  split <;> rfl

theorem outcome_handOver (cell : Cell) : cell.handOver.outcome = cell.outcome := by
  rw [Cell.handOver]
  split <;> rfl

/-- What has been tried is in order, and it tells where tasks stand and how runs have ended. -/
structure Accounted (r : Roster) : Prop where
  inOrder : InOrder r.attempts
  inFlight : ∀ n c key, InFlight r.attempts n c key ↔
    ∃ op, r.stands[n]? = some (.running c key op)
  tried : ∀ a ∈ r.attempts, ∃ st : Stand, r.stands[a.task]? = some st ∧ st.HasTried
  ended : ∀ c outcome, (∃ n, .ended n c outcome ∈ r.attempts) ↔ r.outcome? c = some outcome
  /-- A run ends with what came of the reply that its task has committed, and its task is told
  so. -/
  result : ∀ n c outcome, .ended n c outcome ∈ r.attempts → .told n c outcome ∈ r.attempts ∧
    ∃ key reply, .begun n c key ∈ r.attempts ∧ .committed n key.remote reply ∈ r.deeds ∧
      outcome = (key.remote.commit reply).2.map fun _ => ()

theorem Accounted.fresh (name : String) (endpoints : Endpoints) :
    (Store.fresh name endpoints).roster.Accounted where
  inOrder := .nil
  inFlight n c key := iff_of_false (fun h => absurd h.1 List.not_mem_nil) (by rintro ⟨op, ⟨⟩⟩)
  tried a ha := absurd ha List.not_mem_nil
  ended c outcome :=
    iff_of_false (by rintro ⟨n, hn⟩; exact absurd hn List.not_mem_nil) (by rintro ⟨⟩)
  result n c outcome h := absurd h List.not_mem_nil

/-- Nobody has tried anything, begun a run or left one. -/
theorem Accounted.mono (h : r.Accounted) (hattempts : u.attempts = r.attempts)
    (hdeeds : r.deeds ⊆ u.deeds) (houtcome : ∀ c, u.outcome? c = r.outcome? c)
    (hrunning : ∀ (n c : Nat) key op, u.stands[n]? = some (.running c key op) ↔
      r.stands[n]? = some (.running c key op))
    (htried : ∀ (n : Nat) (st : Stand), r.stands[n]? = some st → st.HasTried →
      ∃ st' : Stand, u.stands[n]? = some st' ∧ st'.HasTried) : u.Accounted := by
  refine ⟨hattempts ▸ h.inOrder, fun n c key => ?_, fun a ha => ?_, fun c outcome => ?_,
    fun n c outcome hended => ?_⟩
  · simp only [hattempts, hrunning]
    exact h.inFlight n c key
  · obtain ⟨st, hst, htr⟩ := h.tried a (hattempts ▸ ha)
    exact htried _ st hst htr
  · rw [hattempts, houtcome]
    exact h.ended c outcome
  · obtain ⟨htold, key, reply, hbegun, hcommitted, hresult⟩ :=
      h.result n c outcome (hattempts ▸ hended)
    exact ⟨hattempts ▸ htold, key, reply, hattempts ▸ hbegun, hdeeds hcommitted, hresult⟩

theorem Accounted.forget (h : r.Accounted) (keys : Keyed ResolverKey Nat) :
    Accounted { r with keys } := ⟨h.inOrder, h.inFlight, h.tried, h.ended, h.result⟩

/-- A task that has tried nothing comes further, and runs no resolver yet. -/
theorem Accounted.put (h : r.Accounted) {v : Roster} {st st' : Stand} (hn : r.stands[n]? = some st)
    (hst : ¬st.HasTried) (hst' : ∀ c key op, st' ≠ .running c key op)
    (hstands : v.stands = r.stands)
    (hattempts : v.attempts = r.attempts) (hdeeds : r.deeds ⊆ v.deeds)
    (houtcome : ∀ c, v.outcome? c = r.outcome? c) : (v.put n st').Accounted := by
  have hlt : n < v.stands.length := hstands ▸ lt_of_stand hn
  refine h.mono hattempts hdeeds houtcome (fun m c key op => ?_) fun m st₀ hm htried => ?_
  · rw [stands_put hlt]
    split
    · next heq =>
      subst heq
      refine iff_of_false (fun heq => hst' c key op (Option.some.inj heq)) fun heq => ?_
      rw [hn] at heq
      exact hst (Option.some.inj heq ▸ trivial)
    · rw [hstands]
  · rw [stands_put hlt]
    split
    · next heq =>
      subst heq
      obtain rfl := Option.some.inj (hn.symm.trans hm)
      exact absurd htried hst
    · exact ⟨st₀, hstands ▸ hm, htried⟩

/-! ### What is tried -/

/-- A task that has tried nothing has no part in what has been tried. -/
theorem Accounted.task_ne (h : r.Accounted) {st : Stand} (hn : r.stands[n]? = some st)
    (hst : ¬st.HasTried) : ∀ a ∈ r.attempts, a.task ≠ n := by
  rintro a ha rfl
  obtain ⟨st', hst', htried⟩ := h.tried a ha
  obtain rfl := Option.some.inj (hn.symm.trans hst')
  exact hst htried

/-- A task makes attempts and comes further: what all others have in flight, and whether they have
tried anything, does not change. -/
theorem Accounted.act (h : r.Accounted) {v : Roster} {st' : Stand} (more : List Attempt)
    (hlt : n < r.stands.length) (hstands : v.stands = r.stands)
    (hattempts : v.attempts = r.attempts ++ more) (hmore : ∀ a ∈ more, a.task = n)
    (htried : st'.HasTried) (hinOrder : InOrder (r.attempts ++ more))
    (hinFlight : ∀ c key, InFlight (r.attempts ++ more) n c key ↔ ∃ op, st' = .running c key op)
    (hended : ∀ c outcome, (∃ m, .ended m c outcome ∈ r.attempts ++ more) ↔
      v.outcome? c = some outcome)
    (hresult : ∀ m c outcome, .ended m c outcome ∈ more →
      .told m c outcome ∈ r.attempts ++ more ∧ ∃ key reply,
        .begun m c key ∈ r.attempts ++ more ∧ .committed m key.remote reply ∈ v.deeds ∧
          outcome = (key.remote.commit reply).2.map fun _ => ())
    (hdeeds : r.deeds ⊆ v.deeds) : (v.put n st').Accounted := by
  have hlt' : n < v.stands.length := hstands ▸ hlt
  have hall : (v.put n st').attempts = r.attempts ++ more := hattempts
  refine ⟨hall ▸ hinOrder, fun m c key => ?_, fun a ha => ?_, fun c outcome => ?_,
    fun m c outcome hm => ?_⟩
  · rw [hall, stands_put hlt']
    split
    · next heq =>
      rw [← heq, hinFlight]
      simp only [Option.some_inj]
    · next hne =>
      rw [inFlight_append_of_ne fun a ha heq => hne ((hmore a ha).symm.trans heq), hstands]
      exact h.inFlight m c key
  · rw [stands_put hlt']
    split
    · exact ⟨st', rfl, htried⟩
    · next hne =>
      rw [hall] at ha
      rcases List.mem_append.mp ha with ha | ha
      · obtain ⟨st, hst, htr⟩ := h.tried a ha
        exact ⟨st, hstands ▸ hst, htr⟩
      · exact absurd (hmore a ha).symm hne
  · rw [hall]
    exact hended c outcome
  · rw [hall] at hm ⊢
    rcases List.mem_append.mp hm with hm | hm
    · obtain ⟨htold, key, reply, hbegun, hcommitted, heq⟩ := h.result m c outcome hm
      exact ⟨List.mem_append_left _ htold, key, reply, List.mem_append_left _ hbegun,
        hdeeds hcommitted, heq⟩
    · exact hresult m c outcome hm

/-- Whoever is told how a run has ended is told what the cell says. -/
theorem Accounted.hear (h : r.Accounted) {outcome : Except Failure Unit}
    (up : r.stands[n]? = some (.up c key)) (houtcome : r.outcome? c = some outcome) :
    ((r.tried (.told n c outcome)).put n .over).Accounted := by
  obtain ⟨m, hm⟩ := (h.ended c outcome).mpr houtcome
  have hmay : Attempt.MayFollow r.attempts (.told n c outcome) := ⟨m, hm⟩
  refine h.act [.told n c outcome] (lt_of_stand up) rfl rfl
    (fun a ha => List.mem_singleton.mp ha ▸ rfl) trivial (h.inOrder.snoc hmay) (fun c' key' => ?_)
    (fun c' o => ?_) (fun m c' o ho => by cases List.mem_singleton.mp ho) fun _ hd => hd
  · -- It has begun nothing, and it is too late to do so.
    refine iff_of_false (fun hflight => ?_) (by rintro ⟨op, ⟨⟩⟩)
    rcases hflight.of_snoc with hflight | heq
    · exact h.task_ne up id _ hflight.1 rfl
    · cases heq
  · rw [outcome?_tried, ← h.ended c' o]
    simp

/-- Whoever begins a run is the only one who has one, and nobody has had it before. -/
theorem Accounted.begin (h : r.Accounted) (hnamed : r.Named) (htended : r.Tended) {cell : Cell}
    (up : r.stands[n]? = some (.up c key)) (found : r.cells[c]? = some cell)
    (open_ : cell.outcome = none) (free : cell.driver = none ∨ cell.driver = some n) :
    (((r.modify c (Cell.drivenBy n)).tried (.begun n c key)).put n
      (.running c key key.remote)).Accounted := by
  have hfirst := h.task_ne up id
  have hmay : Attempt.MayFollow r.attempts (.begun n c key) := by
    refine ⟨hfirst, fun m key' hm => ?_, fun m o hm => ?_, fun m key' hm => ?_⟩
    · obtain ⟨op, hop⟩ := (h.inFlight m c key').mp hm
      obtain ⟨cell', hcell', hdriver⟩ := htended.running m c key' op hop
      obtain rfl := Option.some.inj (found.symm.trans hcell')
      -- Whoever runs the resolver has the run, so it is the same task, which does not run it yet.
      rcases free with hnone | hown
      · cases hnone.symm.trans hdriver
      · obtain rfl := Option.some.inj (hown.symm.trans hdriver)
        cases up.symm.trans hop
    · have hsome := (h.ended c o).mp ⟨m, hm⟩
      rw [outcome?_eq found, open_] at hsome
      cases hsome
    · exact hnamed.one c key' key (Or.inr (Or.inr ⟨m, hm⟩)) (Or.inr (Or.inl ⟨n, _, up, rfl⟩))
  refine h.act [.begun n c key] (lt_of_stand up) rfl rfl
    (fun a ha => List.mem_singleton.mp ha ▸ rfl) trivial (h.inOrder.snoc hmay) (fun c' key' => ?_)
    (fun c' o => ?_) (fun m c' o ho => by cases List.mem_singleton.mp ho) fun _ hd => hd
  · rw [inFlight_begun hfirst]
    constructor
    · rintro ⟨rfl, rfl⟩
      exact ⟨_, rfl⟩
    · rintro ⟨op, heq⟩
      cases heq
      exact ⟨rfl, rfl⟩
  · rw [outcome?_tried, outcome?_modify (f := Cell.drivenBy n) fun _ => rfl, ← h.ended c' o]
    simp

/-- A run that ends was in flight, and its end is the only one for the cell. -/
theorem Accounted.settle (h : r.Accounted) (hnamed : r.Named) (htended : r.Tended) {op : Remote}
    {reply : Reply} {outcome : Except Failure Unit}
    (running : r.stands[n]? = some (.running c key op)) (grows : r.Grows u)
    (committed : .committed n op reply ∈ u.deeds)
    (result : outcome = (op.commit reply).2.map fun _ => ()) :
    ((((u.modify c fun _ => .settled outcome).tried (.ended n c outcome)).tried
      (.told n c outcome)).put n .over).Accounted := by
  obtain ⟨cell, hcell, hdriver⟩ := htended.running n c key op running
  have hflight : InFlight r.attempts n c key := (h.inFlight n c key).mpr ⟨op, running⟩
  have hopen : ∀ m o, .ended m c o ∉ r.attempts := fun m o hm => h.inOrder.not_inFlight hm hflight
  have hended : Attempt.MayFollow r.attempts (.ended n c outcome) := ⟨key, hflight⟩
  have htold : Attempt.MayFollow (r.attempts ++ [.ended n c outcome]) (.told n c outcome) :=
    ⟨n, List.mem_append_right _ (List.mem_singleton_self _)⟩
  have horder := (h.inOrder.snoc hended).snoc htold
  rw [List.append_assoc] at horder
  have hdeeds := grows.deeds_subset
  have hfound : u.cells[c]? = some cell := grows.cells_eq ▸ hcell
  have houtcome : ∀ c', u.outcome? c' = r.outcome? c' := fun c' => by
    rw [outcome?, outcome?, grows.cells_eq]
  refine h.act (v := ((u.modify c fun _ => .settled outcome).tried (.ended n c outcome)).tried
    (.told n c outcome)) [.ended n c outcome, .told n c outcome] (lt_of_stand running)
    grows.stands_eq ?_ (fun a ha => ?_) trivial horder (fun c' key' => ?_) (fun c' o => ?_)
    (fun m c' o hm => ?_) grows.deeds_subset
  · rw [← grows.attempts_eq]
    exact List.append_assoc u.attempts [_] [_]
  · simp only [List.mem_cons, List.not_mem_nil, or_false] at ha
    rcases ha with rfl | rfl <;> rfl
  · -- It had no other run in flight, and this one has ended.
    refine iff_of_false (fun hstill => ?_) (by rintro ⟨op, ⟨⟩⟩)
    obtain ⟨op', hrunning⟩ := (h.inFlight n c' key').mp (hstill.of_append (by simp))
    cases running.symm.trans hrunning
    exact hstill.2.1 outcome (by simp)
  · rw [outcome?_tried, outcome?_tried, outcome?_settled hfound, houtcome]
    split
    · next heq =>
      subst heq
      simp [hopen, eq_comm]
    · next hne =>
      rw [← h.ended c' o]
      simp [hne]
  · have heq : Attempt.ended m c' o = .ended n c outcome := by simpa using hm
    cases heq
    obtain rfl := hnamed.remote n c key op running
    exact ⟨by simp, key, reply, List.mem_append_left _ hflight.1, committed, result⟩

/-- A run that is given up was in flight. -/
theorem Accounted.giveUp (h : r.Accounted) {op : Remote}
    (running : r.stands[n]? = some (.running c key op)) (grows : r.Grows u) :
    (((u.modify c Cell.handOver).tried (.dropped n c)).put n .over).Accounted := by
  have hflight : InFlight r.attempts n c key := (h.inFlight n c key).mpr ⟨op, running⟩
  have hmay : Attempt.MayFollow r.attempts (.dropped n c) := ⟨key, hflight⟩
  have houtcome : ∀ c', u.outcome? c' = r.outcome? c' := fun c' => by
    rw [outcome?, outcome?, grows.cells_eq]
  refine h.act (v := (u.modify c Cell.handOver).tried (.dropped n c)) [.dropped n c]
    (lt_of_stand running) grows.stands_eq ?_ (fun a ha => List.mem_singleton.mp ha ▸ rfl) trivial
    (h.inOrder.snoc hmay) (fun c' key' => ?_) (fun c' o => ?_)
    (fun m c' o hm => by cases List.mem_singleton.mp hm) grows.deeds_subset
  · rw [← grows.attempts_eq]
    rfl
  · refine iff_of_false (fun hstill => ?_) (by rintro ⟨op, ⟨⟩⟩)
    obtain ⟨op', hrunning⟩ := (h.inFlight n c' key').mp (hstill.of_append (by simp))
    cases running.symm.trans hrunning
    exact hstill.2.2 (by simp)
  · rw [outcome?_tried, outcome?_modify outcome_handOver, houtcome, ← h.ended c' o]
    simp

/-- Only others have gone on. -/
theorem Accounted.grow (h : r.Accounted) (hgrows : r.Grows u) : u.Accounted := by
  cases hgrows with
  | intro hline hdeeds =>
    exact h.mono rfl hdeeds (fun _ => rfl) (fun _ _ _ _ => Iff.rfl) fun m st hm ht => ⟨st, hm, ht⟩

theorem Accounted.spawn (h : r.Accounted) :
    Accounted { r with stands := r.stands ++ [.idle] } :=
  h.mono rfl (fun _ hd => hd) (fun _ => rfl) (fun _ _ _ _ => stand_concat_idle (by rintro ⟨⟩))
    fun _ st hm ht => ⟨st, (List.getElem?_append_left (lt_of_stand hm)).trans hm, ht⟩

/-- The run for a new cell has not ended. -/
theorem Accounted.enter (h : r.Accounted) (key : ResolverKey) :
    Accounted { r with keys := r.keys.put key r.cells.length, cells := r.cells ++ [{}] } := by
  refine h.mono rfl (fun _ hd => hd) (fun c => ?_) (fun _ _ _ _ => Iff.rfl)
    fun m st hm ht => ⟨st, hm, ht⟩
  rw [outcome?, outcome?, List.getElem?_append]
  split
  · rfl
  · next hc =>
    rw [List.getElem?_eq_none (Nat.not_lt.mp hc)]
    cases hnew : [({} : Cell)][c - r.cells.length]? with
    | none => rfl
    | some cell =>
      rw [List.mem_singleton.mp (List.mem_of_getElem? hnew)]
      rfl

/-- **Every step keeps attempts and tasks together.** -/
theorem Accounted.step (r u : Roster) (hstep : r.Step u) (hnamed : r.Named) (htended : r.Tended)
    (h : r.Accounted) : u.Accounted := by
  cases hstep with
  | grow grows => exact h.grow grows
  | spawn => exact h.spawn
  | enter new => exact h.enter _
  | rest free =>
    exact h.mono rfl (fun _ hd => hd) (fun _ => rfl) (fun _ _ _ _ => Iff.rfl)
      fun m st hm ht => ⟨st, hm, ht⟩
  | rise waiting =>
    exact h.put waiting id (by rintro _ _ _ ⟨⟩) rfl rfl (fun _ hd => hd) fun _ => rfl
  | come idle entered =>
    exact h.put idle id (by rintro _ _ _ ⟨⟩) rfl rfl (fun _ hd => hd) fun _ => rfl
  | hear up found ended => exact h.hear up ((outcome?_eq found).trans ended)
  | @wait n m c key cell up found open_ taken other =>
    exact h.put up id (by rintro _ _ _ ⟨⟩) rfl rfl (fun _ hd => hd)
      (outcome?_modify (outcome_awaitedBy n) c)
  | begin up found open_ free => exact h.begin hnamed htended up found open_ free
  | work running works =>
    cases works with
    | still grows => exact h.grow grows
    | settle grows committed result woken =>
      exact h.settle hnamed htended running grows committed result
    | giveUp grows woken => exact h.giveUp running grows
  | @leave n c key cell up found other =>
    exact h.put up id (by rintro _ _ _ ⟨⟩) rfl rfl (fun _ hd => hd)
      (outcome?_modify (f := Cell.without n) (fun _ => rfl) c)
  | @leaveRun n c key cell v up found own grows woken =>
    refine h.put (v := (v.modify c (Cell.without n)).modify c Cell.handOver) up id
      (by rintro _ _ _ ⟨⟩) grows.stands_eq grows.attempts_eq grows.deeds_subset fun c' => ?_
    rw [outcome?_modify outcome_handOver, outcome?_modify (f := Cell.without n) fun _ => rfl,
      outcome?, outcome?, grows.cells_eq]
  | finish idle => exact h.put idle id (by rintro _ _ _ ⟨⟩) rfl rfl (fun _ hd => hd) fun _ => rfl

/-! ### Runs -/

/-- All that is kept of the roster: each cell is for one key, cells and those who come to them are
in order, and attempts tell where tasks stand. -/
structure Sound (r : Roster) : Prop where
  named : r.Named
  tended : r.Tended
  accounted : r.Accounted

theorem Sound.fresh (name : String) (endpoints : Endpoints) :
    (Store.fresh name endpoints).roster.Sound :=
  ⟨.fresh name endpoints, .fresh name endpoints, .fresh name endpoints⟩

theorem Sound.steps (hsteps : r.Steps u) (h : r.Sound) : u.Sound := by
  refine hsteps.induction (P := Sound) (fun r u hstep h => ?_) h
  exact ⟨h.named.step r u hstep, h.tended.step r u hstep h.named.placed,
    h.accounted.step r u hstep h.named h.tended⟩

theorem Sound.forget (h : r.Sound) (keys : Keyed ResolverKey Nat)
    (hkeys : ∀ key c, keys.get? key = some c → r.keys.get? key = some c)
    (hnodup : keys.keys.Nodup) :
    Sound { r with keys } :=
  ⟨h.named.forget hkeys hnodup, h.tended.forget keys, h.accounted.forget keys⟩

theorem Sound.move (s : Store) (m : StoreMove) (h : s.roster.Sound) : (s.move m).roster.Sound := by
  by_cases hm : ∀ key, ¬m.Forgets key
  · exact h.steps (s.move_attends hm h.named.placed)
  · cases m with
    | invalidate key =>
      have hnodup : s.resolutions.keys.Nodup := h.named.nodup
      refine h.forget (s.resolutions.erase key) (fun key' c hkey => ?_)
        (Keyed.nodup_keys_erase hnodup key)
      rw [Keyed.get?_erase hnodup] at hkey
      split at hkey
      · cases hkey
      · exact hkey
    | invalidateAll => exact h.forget [] (fun key c hkey => by cases hkey) List.nodup_nil
    | _ => exact absurd (fun key => id) hm

/-- **The roster of every run is sound.** -/
theorem Sound.after (name : String) (endpoints : Endpoints) (ms : List StoreMove) :
    ((Store.fresh name endpoints).after ms).roster.Sound :=
  Store.after_induction (P := fun s => s.roster.Sound) Sound.move (.fresh name endpoints) ms

end Roster

end RemoteSettings
