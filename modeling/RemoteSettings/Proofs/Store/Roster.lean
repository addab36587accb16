import Mathlib.Logic.Relation
import RemoteSettings.Proofs.Store.Frame

/-!
# What the store's tasks do about cells

Seen from far enough away, a task comes to the cell of a key.  It is told how the run has ended, if
one has ended; it waits while another task has the run; or it runs the resolver itself, until the
run has ended or the task is dropped.  A *roster* shows just that: the cells and their keys, where
each task stands, and what tasks have done with cells.

A turn goes through several steps before it says where its task stands.  Until then the roster is
shown with the task put where it really stands.

## Main definitions

* `Stand` — where a task stands with cells.
* `Roster`, `Store.roster` — the roster of a store.
* `Roster.Grows` — all that other affairs of the store change: more tasks stand in line, and more
  has been done.
* `Roster.Work` — what a task does that runs a resolver.
* `Roster.Step`, `Roster.Steps` — what a single task does, and what tasks do one after another.

## Main results

* `Steps.induction` — what holds at first and is preserved by each step is preserved by all.
-/

namespace RemoteSettings

/-- Where a task stands with cells. -/
inductive Stand
  /-- It has not come to any. -/
  | idle
  /-- It is at a cell, and it is its turn. -/
  | up (cell : Nat) (key : ResolverKey)
  | waiting (cell : Nat) (key : ResolverKey)
  | running (cell : Nat) (key : ResolverKey) (op : Remote)
  /-- It has nothing to do with cells, or nothing any more. -/
  | over

/-- The cell at which a task is, and the key for which it has come. -/
def Stand.place? : Stand → Option (Nat × ResolverKey)
  | up cell key => some (cell, key)
  | waiting cell key => some (cell, key)
  | running cell key _ => some (cell, key)
  | _ => none

/-- Where a task stands that has begun an operation. -/
def Goal.stand (op : Remote) : Goal → Stand
  | resolve cell wanted => .running cell wanted.key op
  | save => .over

/-- The operation that a task has begun, and what it is run for. -/
def Phase.goal? : Phase → Option (Remote × Goal)
  | locking _ op goal => some (op, goal)
  | requesting _ op _ goal => some (op, goal)
  | _ => none

/-- Where a task in a phase stands. -/
def Phase.stand : Phase → Stand
  | ready _ => .idle
  | joining cell wanted => .waiting cell wanted.key
  | locking _ op goal => goal.stand op
  | requesting _ op _ goal => goal.stand op
  | done => .over

/-- The run for the cell has ended. -/
def Cell.settled (outcome : Except Failure Unit) : Cell := ⟨some outcome, none, []⟩

/-- A task waits for the cell. -/
def Cell.awaitedBy (n : Nat) (cell : Cell) : Cell :=
  if cell.waiters.contains n then cell else { cell with waiters := cell.waiters ++ [n] }

/-- A task has the run for the cell. -/
def Cell.drivenBy (n : Nat) (cell : Cell) : Cell := { cell with driver := some n }

/-- The first who waits has the run. -/
def Cell.handOver (cell : Cell) : Cell :=
  match cell.waiters with
  | [] => { cell with driver := none }
  | w :: rest => { cell with driver := some w, waiters := rest }

/-- A task waits no longer. -/
def Cell.without (n : Nat) (cell : Cell) : Cell :=
  { cell with waiters := cell.waiters.filter (· != n) }

/-- What a store shows of its cells. -/
structure Roster where
  /-- The cells of the keys that count as begun. -/
  keys : Keyed ResolverKey Nat
  cells : List Cell
  /-- Where each task stands, by number. -/
  stands : List Stand
  line : List Nat
  deeds : List Deed
  attempts : List Attempt

/-- The roster of a store. -/
def Store.roster (s : Store) : Roster where
  keys := s.resolutions
  cells := s.cells
  stands := s.tasks.map (·.phase.stand)
  line := s.line
  deeds := s.deeds
  attempts := s.attempts

namespace Roster

variable {r u v : Roster} {n c : Nat} {key : ResolverKey} {op : Remote}

/-- Says where a task stands. -/
def put (r : Roster) (n : Nat) (st : Stand) : Roster := { r with stands := r.stands.set n st }

/-- Notes what a task does with a cell. -/
def tried (r : Roster) (a : Attempt) : Roster := { r with attempts := r.attempts ++ [a] }

/-- Changes a cell. -/
def modify (r : Roster) (c : Nat) (f : Cell → Cell) : Roster :=
  { r with cells := r.cells.modify c f }

/-- More tasks stand in line, and more has been done; nothing else has changed. -/
inductive Grows (r : Roster) : Roster → Prop
  | intro {line : List Nat} {deeds : List Deed} (line_subset : r.line ⊆ line)
      (deeds_subset : r.deeds ⊆ deeds) : Grows r { r with line, deeds }

/-- What a task does that runs the resolver of a key. -/
inductive Work (n c : Nat) (op : Remote) (r : Roster) : Roster → Prop
  | still {u : Roster} (grows : r.Grows u) : Work n c op r u
  /-- The reply has been committed; who waits is woken, and the task itself is told at once. -/
  | settle {u : Roster} {reply : Reply} {outcome : Except Failure Unit} (grows : r.Grows u)
      (committed : .committed n op reply ∈ u.deeds)
      (result : outcome = (op.commit reply).2.map fun _ => ())
      (woken : ∀ cell, r.cells[c]? = some cell → cell.waiters ⊆ u.line) :
      Work n c op r ((((u.modify c fun _ => .settled outcome).tried (.ended n c outcome)).tried
        (.told n c outcome)).put n .over)
  /-- The task is dropped; the first who waits is woken. -/
  | giveUp {u : Roster} (grows : r.Grows u)
      (woken : ∀ cell, r.cells[c]? = some cell → cell.waiters.head?.toList ⊆ u.line) :
      Work n c op r (((u.modify c Cell.handOver).tried (.dropped n c)).put n .over)

/-- What a task does; that a task begins, and that a cell is made, count as well. -/
inductive Step (r : Roster) : Roster → Prop
  | grow {u : Roster} (grows : r.Grows u) : Step r u
  | spawn : Step r { r with stands := r.stands ++ [.idle] }
  /-- A cell is made for a key that does not count as begun. -/
  | enter {key : ResolverKey} (new : r.keys.get? key = none) :
      Step r { r with keys := r.keys.put key r.cells.length, cells := r.cells ++ [{}] }
  /-- The turn comes of a task that does not wait for a cell. -/
  | rest {n : Nat} (free : ∀ c key, r.stands[n]? ≠ some (.waiting c key)) :
      Step r { r with line := r.line.erase n }
  | rise {n c : Nat} {key : ResolverKey} (waiting : r.stands[n]? = some (.waiting c key)) :
      Step r ({ r with line := r.line.erase n }.put n (.up c key))
  | come {n c : Nat} {key : ResolverKey} (idle : r.stands[n]? = some .idle)
      (entered : r.keys.get? key = some c) : Step r (r.put n (.up c key))
  | hear {n c : Nat} {key : ResolverKey} {cell : Cell} {outcome : Except Failure Unit}
      (up : r.stands[n]? = some (.up c key)) (found : r.cells[c]? = some cell)
      (ended : cell.outcome = some outcome) :
      Step r ((r.tried (.told n c outcome)).put n .over)
  | wait {n m c : Nat} {key : ResolverKey} {cell : Cell}
      (up : r.stands[n]? = some (.up c key)) (found : r.cells[c]? = some cell)
      (open_ : cell.outcome = none) (taken : cell.driver = some m) (other : m ≠ n) :
      Step r ((r.modify c (Cell.awaitedBy n)).put n (.waiting c key))
  | begin {n c : Nat} {key : ResolverKey} {cell : Cell}
      (up : r.stands[n]? = some (.up c key)) (found : r.cells[c]? = some cell)
      (open_ : cell.outcome = none) (free : cell.driver = none ∨ cell.driver = some n) :
      Step r (((r.modify c (Cell.drivenBy n)).tried (.begun n c key)).put n
        (.running c key key.remote))
  | work {n c : Nat} {key : ResolverKey} {op : Remote} {u : Roster}
      (running : r.stands[n]? = some (.running c key op)) (works : r.Work n c op u) : Step r u
  /-- A task is dropped whose turn it was. -/
  | leave {n c : Nat} {key : ResolverKey} {cell : Cell}
      (up : r.stands[n]? = some (.up c key)) (found : r.cells[c]? = some cell)
      (other : cell.driver ≠ some n) : Step r ((r.modify c (Cell.without n)).put n .over)
  /-- A task is dropped that was to have the run next. -/
  | leaveRun {n c : Nat} {key : ResolverKey} {cell : Cell} {u : Roster}
      (up : r.stands[n]? = some (.up c key)) (found : r.cells[c]? = some cell)
      (own : cell.driver = some n) (grows : r.Grows u)
      (woken : (cell.without n).waiters.head?.toList ⊆ u.line) :
      Step r (((u.modify c (Cell.without n)).modify c Cell.handOver).put n .over)
  | finish {n : Nat} (idle : r.stands[n]? = some .idle) : Step r (r.put n .over)

/-- What tasks do one after another. -/
abbrev Steps : Roster → Roster → Prop := Relation.ReflTransGen Step

theorem Step.one (h : r.Step u) : r.Steps u := Relation.ReflTransGen.single h

/-- What each step preserves is preserved by all. -/
theorem Steps.induction {P : Roster → Prop} (step : ∀ r u, Step r u → P r → P u)
    (hsteps : r.Steps u) (h : P r) : P u := by
  induction hsteps with
  | refl => exact h
  | tail _ hstep ih => exact step _ _ hstep ih

/-! ### Putting tasks where they stand -/

@[simp] theorem put_put (st st' : Stand) : (r.put n st).put n st' = r.put n st' := by
  simp [put]

theorem stand_put (h : n < r.stands.length) (st : Stand) : (r.put n st).stands[n]? = some st := by
  simp [put, h]

theorem put_tried (st : Stand) (a : Attempt) : (r.put n st).tried a = (r.tried a).put n st := rfl

theorem put_modify (st : Stand) (c : Nat) (f : Cell → Cell) :
    (r.put n st).modify c f = (r.modify c f).put n st := rfl

/-- To put a task where it stands changes nothing. -/
theorem put_self {st : Stand} (h : r.stands[n]? = some st) : r.put n st = r := by
  obtain ⟨hlt, hst⟩ := List.getElem?_eq_some_iff.mp h
  rw [put, ← hst, List.set_getElem_self]

theorem lt_of_stand {st : Stand} (h : r.stands[n]? = some st) : n < r.stands.length :=
  (List.getElem?_eq_some_iff.mp h).1

theorem stands_put {m : Nat} (h : n < r.stands.length) (st : Stand) :
    (r.put n st).stands[m]? = if n = m then some st else r.stands[m]? := by
  rw [put, List.getElem?_set]
  by_cases hm : n = m
  · rw [if_pos hm, if_pos hm, if_pos h]
  · rw [if_neg hm, if_neg hm]

/-- A task that begins stands nowhere. -/
theorem stand_concat_idle {m : Nat} {st : Stand} (hst : st ≠ .idle) :
    (r.stands ++ [.idle])[m]? = some st ↔ r.stands[m]? = some st := by
  rw [List.getElem?_append]
  split
  · exact Iff.rfl
  · next hm =>
    rw [List.getElem?_eq_none (Nat.not_lt.mp hm)]
    refine iff_of_false (fun hnew => ?_) (by simp)
    exact hst (List.mem_singleton.mp (List.mem_of_getElem? hnew))

/-- Every cell that is spoken of is there. -/
structure Placed (r : Roster) : Prop where
  keys : ∀ key c, r.keys.get? key = some c → c < r.cells.length
  stands : ∀ (n : Nat) (st : Stand) (c : Nat) (key : ResolverKey), r.stands[n]? = some st →
    st.place? = some (c, key) → c < r.cells.length

/-! ### Growing -/

namespace Grows

theorem refl (r : Roster) : r.Grows r := ⟨fun _ h => h, fun _ h => h⟩

theorem trans (h : r.Grows u) (h' : u.Grows v) : r.Grows v := by
  cases h with
  | intro hline hdeeds =>
    cases h' with
    | intro hline' hdeeds' => exact ⟨fun _ h => hline' (hline h), fun _ h => hdeeds' (hdeeds h)⟩

theorem put (h : r.Grows u) (n : Nat) (st : Stand) : (r.put n st).Grows (u.put n st) := by
  cases h with
  | intro hline hdeeds => exact ⟨hline, hdeeds⟩

theorem line_subset (h : r.Grows u) : r.line ⊆ u.line := by
  cases h with
  | intro hline hdeeds => exact hline

theorem deeds_subset (h : r.Grows u) : r.deeds ⊆ u.deeds := by
  cases h with
  | intro hline hdeeds => exact hdeeds

theorem keys_eq (h : r.Grows u) : u.keys = r.keys := by
  cases h with
  | intro hline hdeeds => rfl

theorem cells_eq (h : r.Grows u) : u.cells = r.cells := by
  cases h with
  | intro hline hdeeds => rfl

theorem stands_eq (h : r.Grows u) : u.stands = r.stands := by
  cases h with
  | intro hline hdeeds => rfl

theorem attempts_eq (h : r.Grows u) : u.attempts = r.attempts := by
  cases h with
  | intro hline hdeeds => rfl

end Grows

/-- What comes before a task's work while others go on. -/
theorem Work.grow (h : r.Grows u) (h' : u.Work n c op v) : r.Work n c op v := by
  cases h' with
  | still hgrows => exact .still (h.trans hgrows)
  | settle hgrows hcommitted hresult hwoken =>
    exact .settle (h.trans hgrows) hcommitted hresult fun cell hcell =>
      hwoken cell (h.cells_eq ▸ hcell)
  | giveUp hgrows hwoken =>
    exact .giveUp (h.trans hgrows) fun cell hcell => hwoken cell (h.cells_eq ▸ hcell)

/-- What has been tried before a task's work has been tried after it. -/
theorem Work.attempts_prefix (h : r.Work n c op u) : r.attempts <+: u.attempts := by
  cases h with
  | still hgrows => exact hgrows.attempts_eq ▸ List.prefix_rfl
  | @settle v _ outcome hgrows _ _ _ =>
    refine ⟨[.ended n c outcome, .told n c outcome], ?_⟩
    rw [← hgrows.attempts_eq]
    exact (List.append_assoc v.attempts [_] [_]).symm
  | giveUp hgrows _ => exact ⟨[.dropped n c], by rw [← hgrows.attempts_eq]; rfl⟩

/-- A run has ended, and while who waits is woken others go on. -/
theorem Work.settled {st : Stand} {reply : Reply} {outcome : Except Failure Unit} (hu : r.Grows u)
    (hcommitted : .committed n op reply ∈ u.deeds)
    (hresult : outcome = (op.commit reply).2.map fun _ => ())
    (hv : (u.modify c fun _ => .settled outcome).Grows v)
    (hwoken : ∀ cell, r.cells[c]? = some cell → cell.waiters ⊆ v.line) :
    (r.put n st).Work n c op
      (((v.tried (.ended n c outcome)).tried (.told n c outcome)).put n .over) := by
  cases hu with
  | intro hline hdeeds =>
    cases hv with
    | @intro line' deeds' hline' hdeeds' =>
      have hgrows : (r.put n st).Grows ({ r with line := line', deeds := deeds' }.put n st) :=
        .intro (fun _ h => hline' (hline h)) fun _ h => hdeeds' (hdeeds h)
      have hwork := Work.settle hgrows (hdeeds' hcommitted) hresult hwoken
      simpa only [put, modify, tried, List.set_set] using hwork

/-- A task that has the run for a cell is dropped, and whoever is to have it next is woken. -/
def GivesUp (n c : Nat) (r v : Roster) : Prop :=
  ∀ cell, r.cells[c]? = some cell → ∃ u, r.Grows u ∧ cell.waiters.head?.toList ⊆ u.line ∧
    v = ((u.modify c Cell.handOver).tried (.dropped n c)).put n .over

/-- A task has been dropped, and while the first who waits is woken others go on. -/
theorem GivesUp.of_grows (hu : (r.put n .over).Grows u)
    (hv : ∀ cell, r.cells[c]? = some cell →
      ((u.tried (.dropped n c)).modify c Cell.handOver).Grows v ∧
        cell.waiters.head?.toList ⊆ v.line) : GivesUp n c r v := by
  intro cell hcell
  obtain ⟨hgrows, hwoken⟩ := hv cell hcell
  cases hu with
  | intro hline hdeeds =>
    cases hgrows with
    | @intro line' deeds' hline' hdeeds' =>
      exact ⟨{ r with line := line', deeds := deeds' },
        .intro (fun _ h => hline' (hline h)) fun _ h => hdeeds' (hdeeds h), hwoken, rfl⟩

/-- To give up a run is part of a task's work. -/
theorem GivesUp.work (h : GivesUp n c r v) {cell : Cell} (hcell : r.cells[c]? = some cell) :
    r.Work n c op v := by
  obtain ⟨u, hgrows, hwoken, rfl⟩ := h cell hcell
  refine .giveUp hgrows fun cell' hcell' => ?_
  obtain rfl := Option.some.inj (hcell.symm.trans hcell')
  exact hwoken

end Roster

/-- What a task does for a goal. -/
def Goal.Pursued (n : Nat) (op : Remote) : Goal → Roster → Roster → Prop
  | resolve cell _, r, u => r.Work n cell op u
  | save, r, u => r.Grows u

theorem Goal.Pursued.of_grows {n : Nat} {op : Remote} {goal : Goal} {r u : Roster}
    (h : r.Grows u) : goal.Pursued n op r u := by
  cases goal with
  | resolve cell wanted => exact .still h
  | save => exact h

/-- What comes before while others go on. -/
theorem Goal.Pursued.grow {n : Nat} {op : Remote} {goal : Goal} {r u v : Roster}
    (h' : goal.Pursued n op u v) (h : r.Grows u) : goal.Pursued n op r v := by
  cases goal with
  | resolve cell wanted => exact Roster.Work.grow h h'
  | save => exact h.trans h'

end RemoteSettings
