import RemoteSettings.Proofs.Store.Account
import RemoteSettings.Proofs.Store.Answers

/-!
# Keys are resolved once

A key that counts as begun has a cell, and as long as it does the resolver is run for that cell by
one task at a time, until a run has ended.  From then on everybody who comes to the cell is told how
that run has ended, and so is everybody who has waited.  Once the key has been forgotten, no key has
that cell any more, so a run that is still in flight is in nobody's way.

## Main definitions

* `Store.outcome?`, `Store.driver?`, `Store.waiters` — what a cell says.
* `Store.Runs` — a task runs the resolver of a key for a cell.
* `Store.Comes` — a caller is at a cell, or about to come to it.
* `Store.PassedTo` — those who have waited for a cell have the run next.
* `Roster.Extends` — keys keep their cells, and only new cells get keys.
* `RunsOnce`, `Store.ResolvesOnce` — what it is to resolve each key at most once.

## Main results

* `move_of_comes` — the turn of a caller that comes to a cell.
* `hands_over` — whoever is dropped hands the run over.
* `Work.frame` — a run in flight leaves all other cells alone.
* `keys_resolve_once` — **each key is resolved at most once until it is forgotten.**
-/

namespace RemoteSettings

open Roster

namespace Store

variable {s : Store} {n m c : Nat} {key : ResolverKey} {wanted : Followup}

/-- How the run for a cell has ended. -/
def outcome? (s : Store) (c : Nat) : Option (Except Failure Unit) := s.cells[c]?.bind (·.outcome)

/-- The task that has the run for a cell, or is to have it next. -/
def driver? (s : Store) (c : Nat) : Option Nat := s.cells[c]?.bind (·.driver)

/-- The tasks that wait for a cell, in order. -/
def waiters (s : Store) (c : Nat) : List Nat := (s.cells[c]?.map (·.waiters)).getD []

/-- A task runs the resolver of a key for a cell: it waits for its lock, or for the reply. -/
def Runs (s : Store) (n c : Nat) (key : ResolverKey) : Prop :=
  ∃ t, s.tasks[n]? = some t ∧ t.phase.stand = .running c key key.remote

/-- A caller that has not been cancelled is at a cell, or about to come to it. -/
def Comes (s : Store) (n c : Nat) (wanted : Followup) : Prop :=
  ∃ t, s.tasks[n]? = some t ∧ t.doomed = false ∧
    (t.phase = .joining c wanted ∨ ∃ call, t.phase = .ready call ∧ call.wanted? = some wanted ∧
      s.resolutions.get? wanted.key = some c)

/-- The run for a cell has passed to those who have waited: the first of them is to have it at its
next turn, and nobody has it if nobody has waited. -/
def PassedTo (s : Store) (c : Nat) : List Nat → Prop
  | [] => s.driver? c = none ∧ s.waiters c = []
  | w :: rest => s.driver? c = some w ∧ s.waiters c = rest ∧ w ∈ s.line ∧
      ∃ t wanted, s.tasks[w]? = some t ∧ t.phase = .joining c wanted

/-! ### What cells and attempts say -/

section Cell

variable {cell : Cell} (hcell : s.cells[c]? = some cell)

include hcell

theorem outcome?_of_cell : s.outcome? c = cell.outcome := by rw [outcome?, hcell]; rfl

theorem driver?_of_cell : s.driver? c = cell.driver := by rw [driver?, hcell]; rfl

theorem waiters_of_cell : s.waiters c = cell.waiters := by rw [waiters, hcell]; rfl

end Cell

theorem exists_task {st : Stand} (h : s.roster.stands[n]? = some st) :
    ∃ t, s.tasks[n]? = some t ∧ t.phase.stand = st := by
  rw [roster, List.getElem?_map] at h
  obtain ⟨t, ht, hst⟩ := Option.map_eq_some_iff.mp h
  exact ⟨t, ht, hst⟩

theorem stand_ne_up (phase : Phase) : phase.stand ≠ .up c key := by
  cases phase with
  | locking ticket op goal => cases goal <;> rintro ⟨⟩
  | requesting number op lock goal => cases goal <;> rintro ⟨⟩
  | _ => rintro ⟨⟩

/-- A run is in flight exactly while its task runs the resolver. -/
theorem inFlight_iff (h : s.roster.Sound) : InFlight s.attempts n c key ↔ s.Runs n c key := by
  refine (h.accounted.inFlight n c key).trans ⟨?_, fun ⟨t, ht, hst⟩ => ⟨_, hst ▸ stand_of_task ht⟩⟩
  rintro ⟨op, hop⟩
  obtain ⟨t, ht, hst⟩ := exists_task hop
  exact ⟨t, ht, hst.trans (h.named.remote n c key op hop ▸ rfl)⟩

/-- A run has ended exactly if its cell says so. -/
theorem ended_iff (h : s.roster.Sound) {outcome : Except Failure Unit} :
    (∃ n, .ended n c outcome ∈ s.attempts) ↔ s.outcome? c = some outcome :=
  h.accounted.ended c outcome

theorem hasFinished_iff {k : ResolverKey} (hkey : s.resolutions.get? k = some c) :
    s.hasFinished k = (s.outcome? c).isSome := by
  rw [hasFinished, hkey, outcome?]
  cases hcell : s.cells[c]? with
  | none => simp [hcell]
  | some cell => simp [hcell]

/-! ### The turn of a caller -/

/-- A caller comes to a cell that is there. -/
theorem Comes.exists_cell (h : s.Comes n c wanted) (hsound : s.roster.Sound) :
    ∃ cell, s.cells[c]? = some cell := by
  have hplaced := hsound.named.placed
  have hlt : c < s.cells.length := by
    obtain ⟨t, ht, -, hphase | ⟨call, -, -, hkey⟩⟩ := h
    · refine hplaced.stands n _ c wanted.key (stand_of_task ht) ?_
      rw [hphase]
      rfl
    · exact hplaced.keys wanted.key c hkey
  exact ⟨_, List.getElem?_eq_getElem hlt⟩

/-- At its turn a caller joins those who are at the cell. -/
theorem move_of_comes (h : s.Comes n c wanted) (tr : Transport) :
    s.move (.turn tr n) = { s with line := s.line.erase n }.join tr n c wanted := by
  obtain ⟨t, ht, hdoomed, hphase | ⟨call, hphase, hwanted, hkey⟩⟩ := h
  · exact turn_joining (s := { s with line := s.line.erase n }) ht hdoomed hphase
  · refine (turn_ready (s := { s with line := s.line.erase n }) ht hdoomed hphase).trans ?_
    rw [begin_of_wanted tr _ n hwanted, want]
    have hcell : ({ s with line := s.line.erase n } : Store).cellOf wanted.key
        = (c, { s with line := s.line.erase n }) := by
      rw [cellOf]
      split
      · next c' hc' => rw [Option.some.inj (hc'.symm.trans hkey)]
      · next hnone => cases hnone.symm.trans hkey
    rw [hcell]

/-- Who joins is told how the run has ended, has the run, or waits. -/
theorem join_of_cell {cell : Cell} (hcell : s.cells[c]? = some cell) (tr : Transport) (n : Nat)
    (wanted : Followup) :
    s.join tr n c wanted = match cell.outcome with
      | some outcome => s.tell n c outcome wanted
      | none =>
        if cell.driver = none ∨ cell.driver = some n then
          ((s.modifyCell c (Cell.drivenBy n)).tried (.begun n c wanted.key)).startRemote tr n
            wanted.key.remote (.resolve c wanted)
        else (s.modifyCell c (Cell.awaitedBy n)).setPhase n (.joining c wanted) := by
  rw [join, hcell]
  dsimp only
  generalize cell.outcome = outcome
  cases outcome <;> rfl

/-- **Once a run has ended, whoever comes is told of it**, and asks the service for nothing. -/
theorem told_of_comes (h : s.Comes n c wanted) {outcome : Except Failure Unit}
    (hended : s.outcome? c = some outcome) (tr : Transport) :
    s.move (.turn tr n) = { s with line := s.line.erase n }.tell n c outcome wanted := by
  obtain ⟨cell, hcell, houtcome⟩ := Option.bind_eq_some_iff.mp hended
  rw [move_of_comes h, join_of_cell (s := { s with line := s.line.erase n }) hcell, houtcome]

/-- **While another task has the run, whoever comes waits.** -/
theorem waits_of_comes (hsound : s.roster.Sound) (h : s.Comes n c wanted)
    (hopen : s.outcome? c = none) (hdriver : s.driver? c = some m) (hne : m ≠ n) (tr : Transport) :
    (s.move (.turn tr n)).acts = s.acts ∧ (s.move (.turn tr n)).attempts = s.attempts ∧
      n ∈ (s.move (.turn tr n)).waiters c := by
  obtain ⟨cell, hcell⟩ := h.exists_cell hsound
  have houtcome : cell.outcome = none := (outcome?_of_cell hcell).symm.trans hopen
  have htaken : ¬(cell.driver = none ∨ cell.driver = some n) := by
    have hsome : cell.driver = some m := (driver?_of_cell hcell).symm.trans hdriver
    simp [hsome, hne]
  rw [move_of_comes h, join_of_cell (s := { s with line := s.line.erase n }) hcell, houtcome]
  dsimp only
  rw [if_neg htaken]
  refine ⟨rfl, rfl, ?_⟩
  have hcells : (s.cells.modify c (Cell.awaitedBy n))[c]? = some (cell.awaitedBy n) := by
    rw [List.getElem?_modify_eq, hcell]
    rfl
  show n ∈ (((s.cells.modify c (Cell.awaitedBy n))[c]?).map (·.waiters)).getD []
  rw [hcells]
  exact mem_waiters_awaitedBy n cell

/-- **If nobody has the run, whoever comes begins one.** -/
theorem begins_of_comes (hsound : s.roster.Sound) (h : s.Comes n c wanted)
    (hopen : s.outcome? c = none) (hfree : s.driver? c = none ∨ s.driver? c = some n)
    (tr : Transport) :
    s.attempts ++ [.begun n c wanted.key] <+: (s.move (.turn tr n)).attempts := by
  obtain ⟨cell, hcell⟩ := h.exists_cell hsound
  have houtcome : cell.outcome = none := (outcome?_of_cell hcell).symm.trans hopen
  rw [driver?_of_cell hcell] at hfree
  rw [move_of_comes h, join_of_cell (s := { s with line := s.line.erase n }) hcell, houtcome]
  dsimp only
  rw [if_pos hfree]
  have hwork : Work n c _ _ _ := startRemote_pursued tr
    (({ s with line := s.line.erase n }.modifyCell c (Cell.drivenBy n)).tried
      (.begun n c wanted.key)) n wanted.key.remote (.resolve c wanted)
  exact hwork.attempts_prefix

/-- **Whoever waits is told once a run has ended, and until then somebody else has the run or is to
have it**, unless its own turn is to come. -/
theorem turn_comes (hsound : s.roster.Sound) {t : Task} (ht : s.tasks[n]? = some t)
    (hphase : t.phase = .joining c wanted) :
    n ∈ s.line ∨ s.outcome? c = none ∧ n ∈ s.waiters c ∧ ∃ m, m ≠ n ∧ s.driver? c = some m ∧
      ((∃ key, InFlight s.attempts m c key) ∨ m ∈ s.line) := by
  have hwaiting : s.roster.stands[n]? = some (.waiting c wanted.key) := by
    rw [stand_of_task ht, hphase]
    rfl
  obtain ⟨cell, hcell, hknown | hline⟩ := hsound.tended.waiting n c _ hwaiting
  · have hcell : s.cells[c]? = some cell := hcell
    have htended := hsound.tended.cells c cell hcell
    obtain ⟨m, hm⟩ : ∃ m, cell.driver = some m := by
      refine Option.ne_none_iff_exists'.mp fun hnone => ?_
      rw [htended.led hnone] at hknown
      exact absurd hknown List.not_mem_nil
    have hopen : cell.outcome = none := by
      cases houtcome : cell.outcome with
      | none => rfl
      | some outcome => cases (htended.closed outcome houtcome).symm.trans hm
    obtain ⟨hnot, hleads⟩ := htended.driver m hm
    refine Or.inr ⟨?_, ?_, m, fun heq => hnot (heq ▸ hknown), ?_, ?_⟩
    · rw [outcome?_of_cell hcell, hopen]
    · rw [waiters_of_cell hcell]
      exact hknown
    · rw [driver?_of_cell hcell, hm]
    · rcases hleads with ⟨key, hup⟩ | ⟨key, op, hrunning⟩ | ⟨-, hline⟩
      · obtain ⟨t', -, hst⟩ := exists_task hup
        exact absurd hst (stand_ne_up t'.phase)
      · exact Or.inl ⟨key, (hsound.accounted.inFlight m c key).mpr ⟨op, hrunning⟩⟩
      · exact Or.inr hline
  · exact Or.inl hline

end Store

/-! ### Whoever is dropped hands the run over -/

namespace Roster

variable {r u : Roster} {n c : Nat} {cell : Cell}

/-- A task has gone, and whoever waits first for the cell is to have the run. -/
structure HandsOver (n c : Nat) (cell : Cell) (r u : Roster) : Prop where
  found : u.cells[c]? = some cell.handOver
  woken : cell.waiters.head?.toList ⊆ u.line
  moves : Moves r u n .over

theorem GivesUp.handsOver (h : GivesUp n c r u) (hcell : r.cells[c]? = some cell) :
    HandsOver n c cell r u ∧ u.attempts = r.attempts ++ [.dropped n c] := by
  obtain ⟨v, hgrows, hwoken, rfl⟩ := h cell hcell
  refine ⟨⟨?_, hwoken, ?_, fun m _ hm => hgrows.line_subset hm⟩, ?_⟩
  · have hcells : v.cells[c]? = some cell := hgrows.cells_eq ▸ hcell
    show (v.cells.modify c Cell.handOver)[c]? = some cell.handOver
    rw [List.getElem?_modify_eq, hcells]
    rfl
  · rw [put, ← hgrows.stands_eq]
    rfl
  · rw [← hgrows.attempts_eq]
    rfl

/-- Whoever waits first is to have the run after it has been handed over, and its turn will come. -/
theorem HandsOver.spec (h : HandsOver n c cell r u) (hnot : n ∉ cell.waiters)
    (hwaits : ∀ w ∈ cell.waiters, r.Waits w c) :
    match cell.waiters with
    | [] => cell.handOver.driver = none ∧ cell.handOver.waiters = []
    | w :: rest => cell.handOver.driver = some w ∧ cell.handOver.waiters = rest ∧ w ∈ u.line ∧
        u.Waits w c := by
  have hwoken := h.woken
  rw [Cell.handOver]
  cases hwaiters : cell.waiters with
  | nil => exact ⟨rfl, rfl⟩
  | cons w rest =>
    rw [hwaiters] at hwoken hnot hwaits
    refine ⟨rfl, rfl, hwoken List.mem_cons_self, ?_⟩
    exact h.moves.waits (fun heq => hnot (heq ▸ List.mem_cons_self)) (hwaits w List.mem_cons_self)

end Roster

namespace Store

variable {s : Store} {n c : Nat}

theorem exists_goal {phase : Phase} {key : ResolverKey} {op : Remote}
    (h : phase.stand = .running c key op) :
    ∃ wanted, phase.goal? = some (op, .resolve c wanted) ∧ wanted.key = key := by
  have hgoal : ∀ {op' : Remote} {goal : Goal}, goal.stand op' = .running c key op →
      op' = op ∧ ∃ wanted, goal = .resolve c wanted ∧ wanted.key = key := by
    intro op' goal h
    cases goal with
    | resolve c' wanted =>
      cases h
      exact ⟨rfl, wanted, rfl, rfl⟩
    | save => cases h
  cases phase with
  | locking ticket op' goal =>
    obtain ⟨rfl, wanted, rfl, hkey⟩ := hgoal h
    exact ⟨wanted, rfl, hkey⟩
  | requesting number op' lock goal =>
    obtain ⟨rfl, wanted, rfl, hkey⟩ := hgoal h
    exact ⟨wanted, rfl, hkey⟩
  | _ => cases h

theorem exists_joining {phase : Phase} {key : ResolverKey} (h : phase.stand = .waiting c key) :
    ∃ wanted, phase = .joining c wanted := by
  cases phase with
  | joining c' wanted =>
    cases h
    exact ⟨wanted, rfl⟩
  | locking ticket op goal => cases goal <;> cases h
  | requesting number op lock goal => cases goal <;> cases h
  | _ => cases h

/-- Between turns, whoever waits for a cell is about to come to it again. -/
theorem exists_joining_of_waits (h : s.roster.Waits n c) :
    ∃ t wanted, s.tasks[n]? = some t ∧ t.phase = .joining c wanted := by
  obtain ⟨key, hup | hwaiting⟩ := h
  · obtain ⟨t, -, hst⟩ := exists_task hup
    exact absurd hst (stand_ne_up t.phase)
  · obtain ⟨t, ht, hst⟩ := exists_task hwaiting
    obtain ⟨wanted, hphase⟩ := exists_joining hst
    exact ⟨t, wanted, ht, hphase⟩

/-- **A cancelled task that has the run for a cell hands it over at its turn.** -/
theorem hands_over (hsound : s.roster.Sound) {t : Task} (ht : s.tasks[n]? = some t)
    (hdoomed : t.doomed = true) {cell : Cell} (hcell : s.cells[c]? = some cell)
    (hdriver : cell.driver = some n) (tr : Transport) :
    HandsOver n c cell { s.roster with line := s.line.erase n } (s.move (.turn tr n)).roster ∧
      ((∃ key, InFlight s.attempts n c key) →
        (s.move (.turn tr n)).attempts = s.attempts ++ [.dropped n c]) := by
  have htended := hsound.tended.cells c cell hcell
  have hturn : s.move (.turn tr n) = { s with line := s.line.erase n }.drop n t.phase :=
    turn_of_doomed (s := { s with line := s.line.erase n }) ht hdoomed
  rw [hturn]
  have hstand := stand_of_task ht
  rcases (htended.driver n hdriver).2 with ⟨key, hup⟩ | ⟨key, op, hrunning⟩ | ⟨⟨key, hwaiting⟩, -⟩
  · exact absurd (Option.some.inj (hstand.symm.trans hup)) (stand_ne_up t.phase)
  · obtain ⟨wanted, hgoal, -⟩ := exists_goal (Option.some.inj (hstand.symm.trans hrunning))
    have hgives := drop_givesUp { s with line := s.line.erase n } n hgoal
    obtain ⟨hover, hattempts⟩ := hgives.handsOver hcell
    exact ⟨hover, fun _ => hattempts⟩
  · obtain ⟨wanted, hphase⟩ := exists_joining (Option.some.inj (hstand.symm.trans hwaiting))
    have hwithout : cell.without n = cell := without_of_not_mem (htended.driver n hdriver).1
    have hdrop := drop_joining (s := { s with line := s.line.erase n }) hcell n wanted
    rw [if_pos hdriver, hwithout, ← hphase] at hdrop
    obtain ⟨hgrows, hwoken⟩ := hdrop
    refine ⟨⟨?_, hwoken, hgrows.stands_eq, fun m _ hm => hgrows.line_subset hm⟩, ?_⟩
    · rw [hgrows.cells_eq]
      show ((s.cells.modify c (Cell.without n)).modify c Cell.handOver)[c]? = some cell.handOver
      rw [List.getElem?_modify_eq, List.getElem?_modify_eq, hcell]
      exact congrArg (fun x => some x.handOver) hwithout
    · rintro ⟨key', hflight⟩
      obtain ⟨op, hrunning⟩ := (hsound.accounted.inFlight n c key').mp hflight
      cases hwaiting.symm.trans hrunning

end Store

/-! ### Keys and their cells -/

namespace Roster

variable {r u v : Roster} {n c : Nat} {op : Remote}

/-- Keys keep their cells, and keys that come to count as begun get new ones. -/
structure Extends (r u : Roster) : Prop where
  keys : ∀ key c, r.keys.get? key = some c → u.keys.get? key = some c
  length : r.cells.length ≤ u.cells.length
  new : ∀ key c, u.keys.get? key = some c → r.keys.get? key = some c ∨ r.cells.length ≤ c

namespace Extends

theorem of_keys_eq (hkeys : u.keys = r.keys) (hlength : r.cells.length ≤ u.cells.length) :
    r.Extends u :=
  ⟨fun _ _ h => hkeys ▸ h, hlength, fun _ _ h => Or.inl (hkeys ▸ h)⟩

theorem trans (h : r.Extends u) (h' : u.Extends v) : r.Extends v where
  keys key c hkey := h'.keys key c (h.keys key c hkey)
  length := Nat.le_trans h.length h'.length
  new key c hkey := by
    rcases h'.new key c hkey with hkey | hnew
    · exact h.new key c hkey
    · exact Or.inr (Nat.le_trans h.length hnew)

end Extends

/-- What a task does that runs a resolver leaves keys and all other cells alone. -/
theorem Work.frame (h : r.Work n c op u) :
    u.keys = r.keys ∧ u.cells.length = r.cells.length ∧
      ∀ c', c' ≠ c → u.cells[c']? = r.cells[c']? := by
  have hmodify : ∀ {v : Roster} (f : Cell → Cell), r.Grows v →
      v.keys = r.keys ∧ (v.cells.modify c f).length = r.cells.length ∧
        ∀ c', c' ≠ c → (v.cells.modify c f)[c']? = r.cells[c']? := by
    intro v f hgrows
    refine ⟨hgrows.keys_eq, by rw [List.length_modify, hgrows.cells_eq], fun c' hne => ?_⟩
    rw [List.getElem?_modify_ne _ _ hne.symm, hgrows.cells_eq]
  cases h with
  | still grows => exact ⟨grows.keys_eq, by rw [grows.cells_eq], fun c' _ => by rw [grows.cells_eq]⟩
  | settle grows _ _ _ => exact hmodify _ grows
  | giveUp grows _ => exact hmodify _ grows

theorem Step.extends (h : r.Step u) : r.Extends u := by
  cases h with
  | grow grows => exact .of_keys_eq grows.keys_eq (Nat.le_of_eq (by rw [grows.cells_eq]))
  | enter new =>
    refine ⟨fun key c hkey => ?_, by simp, fun key c hkey => ?_⟩
    · rw [Keyed.get?_put_of_ne, hkey]
      rintro rfl
      cases new.symm.trans hkey
    · rw [Keyed.get?_put] at hkey
      split at hkey
      · exact Or.inr (Nat.le_of_eq (Option.some.inj hkey))
      · exact Or.inl hkey
  | work running works =>
    obtain ⟨hkeys, hlength, -⟩ := works.frame
    exact .of_keys_eq hkeys (Nat.le_of_eq hlength.symm)
  | leaveRun up found own grows woken =>
    refine .of_keys_eq grows.keys_eq ?_
    simp [put, modify, grows.cells_eq]
  | _ => exact .of_keys_eq rfl (by simp [put, modify, tried])

theorem Steps.extends (h : r.Steps u) : r.Extends u := by
  induction h with
  | refl => exact .of_keys_eq rfl (Nat.le_refl _)
  | tail _ hstep ih => exact ih.trans hstep.extends

/-- No key has the cell any more. -/
structure Forgotten (r : Roster) (c : Nat) : Prop where
  there : c < r.cells.length
  none : ∀ key, r.keys.get? key ≠ some c

theorem Forgotten.extends (h : r.Forgotten c) (hext : r.Extends u) : u.Forgotten c := by
  refine ⟨Nat.lt_of_lt_of_le h.there hext.length, fun key hkey => ?_⟩
  rcases hext.new key c hkey with hkey | hnew
  · exact h.none key hkey
  · exact absurd h.there (Nat.not_lt.mpr hnew)

end Roster

namespace Store

variable {s : Store} {n c : Nat} {m : StoreMove} {key : ResolverKey}

/-- What is forgotten is no key's any more, and nothing is learnt. -/
theorem keys_of_forgets (hsound : s.roster.Sound) (hm : m.Forgets key) :
    (s.move m).resolutions.get? key = none ∧ (s.move m).cells = s.cells ∧
      ∀ key' c, (s.move m).resolutions.get? key' = some c → s.resolutions.get? key' = some c := by
  have hnodup : s.resolutions.keys.Nodup := hsound.named.nodup
  cases m with
  | invalidate key' =>
    obtain rfl : key' = key := hm
    refine ⟨Keyed.get?_erase_self hnodup key', rfl, fun k c hk => ?_⟩
    change (s.resolutions.erase key').get? k = some c at hk
    rw [Keyed.get?_erase hnodup] at hk
    split at hk
    · cases hk
    · exact hk
  | invalidateAll => exact ⟨rfl, rfl, by rintro _ _ ⟨⟩⟩
  | _ => exact hm.elim

/-- **Once a key has been forgotten, no key has its cell.** -/
theorem forgotten_of_forgets (hsound : s.roster.Sound) (hkey : s.resolutions.get? key = some c)
    (hm : m.Forgets key) : (s.move m).roster.Forgotten c := by
  obtain ⟨hnone, hcells, hsubset⟩ := keys_of_forgets hsound hm
  have hlt : c < s.cells.length := hsound.named.placed.keys key c hkey
  refine ⟨Nat.lt_of_lt_of_eq hlt (congrArg List.length hcells.symm), fun key' hkey' => ?_⟩
  -- The cell is for this key only, which has been forgotten.
  obtain rfl := hsound.named.one c key' key (Or.inl (hsubset key' c hkey')) (Or.inl hkey)
  cases hnone.symm.trans hkey'

theorem forgotten_move (hsound : s.roster.Sound) (h : s.roster.Forgotten c) (m : StoreMove) :
    (s.move m).roster.Forgotten c := by
  by_cases hm : ∀ key, ¬m.Forgets key
  · exact h.extends (s.move_attends hm hsound.named.placed).extends
  · obtain ⟨key, hforgets⟩ := not_forall_not.mp hm
    obtain ⟨-, hcells, hsubset⟩ := keys_of_forgets hsound hforgets
    exact ⟨Nat.lt_of_lt_of_eq h.there (congrArg List.length hcells.symm),
      fun key' hkey' => h.none key' (hsubset key' c hkey')⟩

theorem forgotten_after (hsound : s.roster.Sound) (h : s.roster.Forgotten c) (ms : List StoreMove) :
    (s.after ms).roster.Forgotten c := by
  have hboth := after_induction (P := fun s => s.roster.Sound ∧ s.roster.Forgotten c)
    (fun s m h => ⟨h.1.move s m, forgotten_move h.1 h.2 m⟩) ⟨hsound, h⟩ ms
  exact hboth.2

/-- **The turn of a task that runs a resolver matters to its own cell only**: whether keys with
other cells count as begun or as ended does not change. -/
theorem resolution_of_running (hsound : s.roster.Sound) (h : InFlight s.attempts n c key)
    (tr : Transport) {k : ResolverKey} (hk : s.resolutions.get? k ≠ some c) :
    (s.move (.turn tr n)).hasStarted k = s.hasStarted k ∧
      (s.move (.turn tr n)).hasFinished k = s.hasFinished k := by
  obtain ⟨t, ht, hstand⟩ := (inFlight_iff hsound).mp h
  obtain ⟨wanted, hgoal, -⟩ := exists_goal hstand
  obtain ⟨cell, hcell, -⟩ := hsound.tended.running n c key _ (hstand ▸ stand_of_task ht)
  have hwork := turn_of_running (s := { s with line := s.line.erase n }) tr ht hgoal hcell
  obtain ⟨hkeys, -, hcells⟩ := hwork.frame
  have hkeys : (s.move (.turn tr n)).resolutions = s.resolutions := hkeys
  refine ⟨by rw [hasStarted, hasStarted, hkeys], ?_⟩
  rw [hasFinished, hasFinished, hkeys]
  cases hentry : s.resolutions.get? k with
  | none => rfl
  | some c' =>
    have hne : c' ≠ c := fun heq => hk (heq ▸ hentry)
    have hsame : (s.move (.turn tr n)).cells[c']? = s.cells[c']? := hcells c' hne
    rw [Option.bind_some, Option.bind_some, hsame]

/-- **A key that counts as begun keeps its cell until it is forgotten.** -/
theorem keeps_cell (hsound : s.roster.Sound) (hkey : s.resolutions.get? key = some c)
    (hm : ¬m.Forgets key) : (s.move m).resolutions.get? key = some c := by
  by_cases hnone : ∀ key', ¬m.Forgets key'
  · exact (s.move_attends hnone hsound.named.placed).extends.keys key c hkey
  · cases m with
    | invalidate key' => exact (Keyed.get?_erase_of_ne hm s.resolutions).trans hkey
    | invalidateAll => exact absurd trivial hm
    | _ => exact absurd (fun key' => id) hnone

/-! ### Each key is resolved once -/

/-- The run for a cell has not ended exactly if no end has been noted. -/
theorem open_iff (hsound : s.roster.Sound) :
    s.outcome? c = none ↔ ∀ n o, .ended n c o ∉ s.attempts := by
  rw [Option.eq_none_iff_forall_ne_some]
  constructor
  · intro h n o hn
    exact h o ((ended_iff hsound).mp ⟨n, hn⟩)
  · intro h o ho
    obtain ⟨n, hn⟩ := (ended_iff hsound).mpr ho
    exact h n o hn

/-- A key counts as ended exactly if a run for its cell has. -/
theorem hasFinished_eq_true_iff (hsound : s.roster.Sound) (hkey : s.resolutions.get? key = some c) :
    s.hasFinished key = true ↔ ∃ n o, .ended n c o ∈ s.attempts := by
  rw [hasFinished_iff hkey, Option.isSome_iff_ne_none, ne_eq, open_iff hsound]
  simp only [not_forall, not_not]

/-- **Once whoever has the run has been cancelled, whoever waits first is to have it next.** -/
theorem handed_over (hsound : s.roster.Sound) {t : Task} (ht : s.tasks[n]? = some t)
    (hdoomed : t.doomed = true) (hdriver : s.driver? c = some n) (tr : Transport) :
    (s.move (.turn tr n)).outcome? c = none ∧ (s.move (.turn tr n)).PassedTo c (s.waiters c) ∧
      ((∃ key, InFlight s.attempts n c key) →
        (s.move (.turn tr n)).attempts = s.attempts ++ [.dropped n c]) := by
  obtain ⟨cell, hcell, hown⟩ := Option.bind_eq_some_iff.mp hdriver
  obtain ⟨hover, hdropped⟩ := hands_over hsound ht hdoomed hcell hown tr
  have htended := hsound.tended.cells c cell hcell
  have hfound : (s.move (.turn tr n)).cells[c]? = some cell.handOver := hover.found
  refine ⟨?_, ?_, hdropped⟩
  · rw [outcome?_of_cell hfound, outcome_handOver]
    cases houtcome : cell.outcome with
    | none => rfl
    | some outcome => cases (htended.closed outcome houtcome).symm.trans hown
  · have hspec := hover.spec (htended.driver n hown).1 fun w hw => htended.waiters w hw
    rw [waiters_of_cell hcell]
    cases hwaiters : cell.waiters with
    | nil =>
      rw [hwaiters] at hspec
      rwa [PassedTo, driver?_of_cell hfound, waiters_of_cell hfound]
    | cons w rest =>
      rw [hwaiters] at hspec
      obtain ⟨hdriver, hrest, hline, hwaits⟩ := hspec
      rw [PassedTo, driver?_of_cell hfound, waiters_of_cell hfound]
      exact ⟨hdriver, hrest, hline, exists_joining_of_waits hwaits⟩

end Store

/-! ### Resolved once -/

/-- Up to a moment, by which the attempts `as` out of `all` had been made, the resolver has been run
for a cell once at a time. -/
structure RunsOnce (all as : List Attempt) (c : Nat) : Prop where
  /-- All runs for the cell are for one key. -/
  oneKey : ∀ n m key key', .begun n c key ∈ as → .begun m c key' ∈ as → key = key'
  /-- At most one run is in flight. -/
  oneInFlight : ∀ n m key key', InFlight as n c key → InFlight as m c key' → n = m ∧ key = key'
  /-- A run is begun next only if none is in flight and none has ended. -/
  begins : ∀ n key, as ++ [.begun n c key] <+: all →
    (∀ m key', ¬InFlight as m c key') ∧ ∀ m o, .ended m c o ∉ as
  /-- Whoever is told of an end is told of one that there has been. -/
  told : ∀ n o, .told n c o ∈ as → ∃ m, .ended m c o ∈ as
  /-- Once a run has ended, it is the only one, and all who are told of an end are told of this. -/
  ended : ∀ m o, .ended m c o ∈ as → (∀ n key, ¬InFlight as n c key) ∧
    (∀ n o', .ended n c o' ∈ as → n = m ∧ o' = o) ∧ ∀ n o', .told n c o' ∈ as → o' = o

theorem InOrder.runsOnce {all as : List Attempt} (h : InOrder all) (hpre : as <+: all) (c : Nat) :
    RunsOnce all as c where
  oneKey _ _ _ _ := (h.of_prefix hpre).key_eq
  oneInFlight _ _ _ _ := (h.of_prefix hpre).unique
  begins n key hbegun := by
    obtain ⟨-, hnone, hopen, -⟩ := h as _ hbegun
    exact ⟨hnone, hopen⟩
  told _ _ := (h.of_prefix hpre).exists_ended
  ended m o hm := by
    have has := h.of_prefix hpre
    exact ⟨fun n key => has.not_inFlight hm, fun n o' hn => has.ended_unique hn hm,
      fun n o' htold => has.told_eq htold hm⟩

namespace Store

/-- Each key has been resolved at most once until it was forgotten, and so it goes on. -/
structure ResolvesOnce (s : Store) : Prop where
  /-- At every moment at most one run for a cell is in flight, and none once one has ended. -/
  once : ∀ as, as <+: s.attempts → ∀ c, RunsOnce s.attempts as c
  /-- A run is in flight exactly while its task runs the resolver. -/
  inFlight_iff_runs : ∀ n c key, InFlight s.attempts n c key ↔ s.Runs n c key
  /-- The task of a run in flight has the run. -/
  driven : ∀ n c key, InFlight s.attempts n c key → s.driver? c = some n
  /-- A run ends with what came of the reply which the task has committed, and the task is told so
  itself. -/
  result : ∀ n c o, .ended n c o ∈ s.attempts → .told n c o ∈ s.attempts ∧ ∃ key reply,
    .begun n c key ∈ s.attempts ∧ .committed n key.remote reply ∈ s.deeds ∧
      o = (key.remote.commit reply).2.map fun _ => ()
  /-- As long as a key is not forgotten it keeps its cell. -/
  keepsCell : ∀ key c, s.resolutions.get? key = some c → ∀ m : StoreMove, ¬m.Forgets key →
    (s.move m).resolutions.get? key = some c
  /-- The runs for the cell of a key are runs for the key. -/
  ownRuns : ∀ key c, s.resolutions.get? key = some c →
    ∀ n key', .begun n c key' ∈ s.attempts → key' = key
  /-- A key counts as ended exactly if a run for its cell has ended. -/
  finished_iff : ∀ key c, s.resolutions.get? key = some c →
    (s.hasFinished key = true ↔ ∃ n o, .ended n c o ∈ s.attempts)
  /-- Whoever comes to a cell is told how the run has ended, once it has. -/
  isTold : ∀ n c wanted, s.Comes n c wanted → ∀ tr m o, .ended m c o ∈ s.attempts →
    s.move (.turn tr n) = { s with line := s.line.erase n }.tell n c o wanted
  /-- Until then whoever comes waits if another task has the run. -/
  waits : ∀ n c wanted, s.Comes n c wanted → (∀ m o, .ended m c o ∉ s.attempts) →
    ∀ tr m, m ≠ n → s.driver? c = some m → (s.move (.turn tr n)).acts = s.acts ∧
      (s.move (.turn tr n)).attempts = s.attempts ∧ n ∈ (s.move (.turn tr n)).waiters c
  /-- Until then whoever comes begins a run if no other task has one. -/
  begins : ∀ n c wanted, s.Comes n c wanted → (∀ m o, .ended m c o ∉ s.attempts) →
    ∀ tr, s.driver? c = none ∨ s.driver? c = some n →
      s.attempts ++ [.begun n c wanted.key] <+: (s.move (.turn tr n)).attempts
  /-- Whoever has been told has ended, and has answered accordingly unless it answers nobody. -/
  answers : ∀ n c o, .told n c o ∈ s.attempts → ∃ t, s.tasks[n]? = some t ∧ t.phase = .done ∧
    (t.quiet = false → ∃ answer, s.answerOf? n = some answer ∧ answer.map (fun _ => ()) = o)
  /-- Whoever has waited for a cell has a turn to come once the run has ended, and until then another
  task runs the resolver or has a turn to come and the run next. -/
  turnComes : ∀ n t c wanted, s.tasks[n]? = some t → t.phase = .joining c wanted → n ∈ s.line ∨
    (∀ m o, .ended m c o ∉ s.attempts) ∧ n ∈ s.waiters c ∧ ∃ m, m ≠ n ∧ s.driver? c = some m ∧
      ((∃ key, InFlight s.attempts m c key) ∨ m ∈ s.line)
  /-- If the task that has the run has been cancelled, whoever waits first has the run next. -/
  handsOver : ∀ n t c, s.tasks[n]? = some t → t.doomed = true → s.driver? c = some n → ∀ tr,
    (∀ m o, .ended m c o ∉ (s.move (.turn tr n)).attempts) ∧
    (s.move (.turn tr n)).PassedTo c (s.waiters c) ∧
    ((∃ key, InFlight s.attempts n c key) →
      (s.move (.turn tr n)).attempts = s.attempts ++ [.dropped n c])
  /-- Once a key has been forgotten it does not count as begun. -/
  forgets : ∀ key c, s.resolutions.get? key = some c → ∀ m : StoreMove, m.Forgets key →
    (s.move m).hasStarted key = false
  /-- No key ever has the cell of a forgotten key again. -/
  abandoned : ∀ key c, s.resolutions.get? key = some c → ∀ m : StoreMove, m.Forgets key →
    ∀ ms key', ((s.move m).after ms).resolutions.get? key' ≠ some c
  /-- A run in flight for the cell of a forgotten key does not matter to what counts as begun or as
  ended. -/
  ignored : ∀ key c, s.resolutions.get? key = some c → ∀ m : StoreMove, m.Forgets key →
    ∀ ms, let u := (s.move m).after ms
    ∀ n key', InFlight u.attempts n c key' → ∀ tr k,
      (u.move (.turn tr n)).hasStarted k = u.hasStarted k ∧
      (u.move (.turn tr n)).hasFinished k = u.hasFinished k

theorem resolvesOnce {s : Store} (h : s.roster.Sound) (hagreed : s.answers.Agreed) :
    s.ResolvesOnce where
  once as hpre c := h.accounted.inOrder.runsOnce hpre c
  inFlight_iff_runs n c key := inFlight_iff h
  driven := by
    intro n c key hflight
    obtain ⟨op, hrunning⟩ := (h.accounted.inFlight n c key).mp hflight
    obtain ⟨cell, hcell, hdriver⟩ := h.tended.running n c key op hrunning
    rw [driver?_of_cell hcell, hdriver]
  result := h.accounted.result
  keepsCell key c hkey m hm := keeps_cell h hkey hm
  ownRuns key c hkey n key' hbegun :=
    h.named.one c key' key (Or.inr (Or.inr ⟨n, hbegun⟩)) (Or.inl hkey)
  finished_iff key c hkey := hasFinished_eq_true_iff h hkey
  isTold n c wanted hcomes tr m o hm := told_of_comes hcomes ((ended_iff h).mp ⟨m, hm⟩) tr
  waits n c wanted hcomes hopen tr m hne hm :=
    waits_of_comes h hcomes ((open_iff h).mpr hopen) hm hne tr
  begins n c wanted hcomes hopen tr hfree :=
    begins_of_comes h hcomes ((open_iff h).mpr hopen) hfree tr
  answers n c o := answer_of_told hagreed
  turnComes := by
    intro n t c wanted ht hphase
    rw [← open_iff h]
    exact turn_comes h ht hphase
  handsOver := by
    intro n t c ht hdoomed hdriver tr
    rw [← open_iff (h.move s (.turn tr n))]
    exact handed_over h ht hdoomed hdriver tr
  forgets := by
    intro key c hkey m hm
    rw [hasStarted, Keyed.has, (keys_of_forgets h hm).1]
    rfl
  abandoned key c hkey m hm ms :=
    (forgotten_after (h.move s m) (forgotten_of_forgets h hkey hm) ms).none
  ignored := by
    intro key c hkey m hm ms u n key' hflight tr k
    have hmoved : (s.move m).roster.Sound := h.move s m
    have hforgotten : u.roster.Forgotten c :=
      forgotten_after hmoved (forgotten_of_forgets h hkey hm) ms
    have hu : u.roster.Sound :=
      after_induction (P := fun s => s.roster.Sound) Roster.Sound.move hmoved ms
    exact resolution_of_running hu hflight tr (hforgotten.none k)

end Store

/-- **Each key is resolved at most once until it is forgotten**, after any run, whatever calls are
made and cancelled, in whatever order tasks take their turns, and whatever is answered and
forgotten. -/
theorem keys_resolve_once (name : String) (endpoints : Endpoints) (ms : List StoreMove) :
    ((Store.fresh name endpoints).after ms).ResolvesOnce :=
  Store.resolvesOnce (.after name endpoints ms) (Store.agreed_after name endpoints ms)

/-- A key is forgotten while a run is in flight, which then ends.  Meanwhile another run has been
begun for a new cell; its task is cancelled, whoever waits has the run next, and it fails. -/
def relay : List StoreMove :=
  [.spawn (.resolveSetting "g" "a" false) false, .turn .later 0, .invalidate (.setting "g" "a"),
    .spawn (.resolveSetting "g" "a" false) false, .turn .later 1,
    .respond 0 (.ok (.object [("id", .string "a")])), .turn .later 0,
    .spawn (.resolveSetting "g" "a" false) false, .turn .later 2, .cancel 1, .turn .later 1,
    .turn .later 2, .respond 2 (.error (.transport "refused")), .turn .later 2,
    .spawn (.resolveSetting "g" "a" false) false, .turn .later 3]

/-- In the relay, the end of the first run does not make the key count as ended, and the last caller
is told how the last run has ended. -/
theorem relay_resolves_once :
    let s := (Store.fresh "s" ⟨"", "/groups"⟩).after relay
    let forgotten := ((Store.fresh "s" ⟨"", "/groups"⟩).after (relay.take 2)).move
      (.invalidate (.setting "g" "a"))
    let early := forgotten.after ((relay.drop 3).take 3)
    s.attempts = [.begun 0 0 (.setting "g" "a"), .begun 1 1 (.setting "g" "a"), .ended 0 0 (.ok ()),
      .told 0 0 (.ok ()), .dropped 1 1, .begun 2 1 (.setting "g" "a"),
      .ended 2 1 (.error (.transport "refused")), .told 2 1 (.error (.transport "refused")),
      .told 3 1 (.error (.transport "refused"))] ∧
    InFlight early.attempts 0 0 (.setting "g" "a") ∧
    (early.move (.turn .later 0)).hasFinished (.setting "g" "a") = false ∧
    ∃ answer, s.answerOf? 3 = some answer ∧
      answer.map (fun _ => ()) = .error (.transport "refused") := by
  intro s forgotten early
  have honce := keys_resolve_once "s" ⟨"", "/groups"⟩ relay
  have hbegun := keys_resolve_once "s" ⟨"", "/groups"⟩ (relay.take 2)
  have hflight : InFlight early.attempts 0 0 (.setting "g" "a") := by
    have hearly : early.attempts
        = [.begun 0 0 (.setting "g" "a"), .begun 1 1 (.setting "g" "a")] := rfl
    rw [hearly]
    simp [InFlight]
  refine ⟨rfl, hflight, ?_, ?_⟩
  · obtain ⟨-, hfinished⟩ := hbegun.ignored (.setting "g" "a") 0 rfl
      (.invalidate (.setting "g" "a")) rfl ((relay.drop 3).take 3) 0 _ hflight .later
      (.setting "g" "a")
    exact hfinished.trans rfl
  · obtain ⟨t, ht, -, hanswer⟩ := honce.answers 3 1 (.error (.transport "refused"))
      (List.mem_of_getElem? (i := 8) rfl)
    cases ht
    exact hanswer rfl

end RemoteSettings
