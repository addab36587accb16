import RemoteSettings.Proofs.Store.Attendance

/-!
# Cells are kept in order

A cell is for one key, whatever keys are begun and forgotten.  As long as tasks wait for a cell, one
of them, or another task, has the run; who is to have the run next stands in line, and so does
everybody who waits once the run has ended.

## Main definitions

* `Roster.At`, `Roster.Names` — a task is at a cell; a key is spoken of with a cell.
* `Roster.Named` — each cell is for one key.
* `Roster.Leads`, `Roster.Waits` — a task has the run for a cell, or is to have it next; it waits.
* `Cell.Tended`, `Roster.Tended` — the invariant of cells and of those who come to them.

## Main results

* `Named.step`, `Tended.step` — every step keeps cells in order.
-/

namespace RemoteSettings

namespace Roster

variable {r u : Roster} {n m c : Nat} {key key' : ResolverKey} {op : Remote}

/-! ### Each cell is for one key -/

/-- A task is at a cell for a key. -/
def At (r : Roster) (n c : Nat) (key : ResolverKey) : Prop :=
  ∃ st, r.stands[n]? = some st ∧ st.place? = some (c, key)

/-- A key is spoken of with a cell: it counts as begun there, a task has come for it, or the
resolver has been run for it. -/
def Names (r : Roster) (c : Nat) (key : ResolverKey) : Prop :=
  r.keys.get? key = some c ∨ (∃ n, r.At n c key) ∨ ∃ n, .begun n c key ∈ r.attempts

/-- Each cell is for one key, and every cell that is spoken of is there. -/
structure Named (r : Roster) : Prop where
  one : ∀ c key key', r.Names c key → r.Names c key' → key = key'
  there : ∀ c key, r.Names c key → c < r.cells.length
  remote : ∀ (n c : Nat) key op, r.stands[n]? = some (.running c key op) → op = key.remote
  nodup : r.keys.keys.Nodup

theorem Named.fresh (name : String) (endpoints : Endpoints) :
    (Store.fresh name endpoints).roster.Named := by
  have hnone : ∀ c key, ¬(Store.fresh name endpoints).roster.Names c key := by
    rintro c key (h | ⟨n, st, h, -⟩ | ⟨n, h⟩)
    · cases h
    · cases h
    · exact absurd h List.not_mem_nil
  refine ⟨fun c key _ h => absurd h (hnone c key), fun c key h => absurd h (hnone c key), ?_,
    List.nodup_nil⟩
  intro n c key op h
  cases h

theorem Named.placed (h : r.Named) : r.Placed where
  keys key c hkey := h.there c key (Or.inl hkey)
  stands n st c key hst hplace := h.there c key (Or.inr (Or.inl ⟨n, st, hst, hplace⟩))

/-- Where no more keys are spoken of than before, cells are still for one key each. -/
theorem Named.mono (h : r.Named) (hnames : ∀ c key, u.Names c key → r.Names c key)
    (hlength : r.cells.length ≤ u.cells.length)
    (hremote : ∀ (n c : Nat) key op, u.stands[n]? = some (.running c key op) → op = key.remote)
    (hnodup : u.keys.keys.Nodup) : u.Named where
  one c key key' hkey hkey' := h.one c key key' (hnames c key hkey) (hnames c key' hkey')
  there c key hkey := Nat.lt_of_lt_of_le (h.there c key (hnames c key hkey)) hlength
  remote := hremote
  nodup := hnodup

theorem at_put {st : Stand} (h : (r.put n st).At m c key) :
    r.At m c key ∨ st.place? = some (c, key) := by
  obtain ⟨st', hst', hplace⟩ := h
  rw [put, List.getElem?_set] at hst'
  split at hst'
  · split at hst'
    · exact Or.inr (Option.some.inj hst' ▸ hplace)
    · cases hst'
  · exact Or.inl ⟨st', hst', hplace⟩

/-- A task that is put somewhere speaks of nothing but its place. -/
theorem names_put {st : Stand} (h : (r.put n st).Names c key) :
    r.Names c key ∨ st.place? = some (c, key) := by
  rcases h with h | ⟨m, h⟩ | h
  · exact Or.inl (Or.inl h)
  · exact (at_put h).imp_left fun h => Or.inr (Or.inl ⟨m, h⟩)
  · exact Or.inl (Or.inr (Or.inr h))

theorem names_tried {a : Attempt} (h : (r.tried a).Names c key) :
    r.Names c key ∨ ∃ n, a = .begun n c key := by
  rcases h with h | h | ⟨n, h⟩
  · exact Or.inl (Or.inl h)
  · exact Or.inl (Or.inr (Or.inl h))
  · rcases List.mem_append.mp h with h | h
    · exact Or.inl (Or.inr (Or.inr ⟨n, h⟩))
    · exact Or.inr ⟨n, (List.mem_singleton.mp h).symm⟩

theorem Named.grow (h : r.Named) (hgrows : r.Grows u) : u.Named := by
  cases hgrows with
  | intro hline hdeeds => exact ⟨h.one, h.there, h.remote, h.nodup⟩

theorem Named.modify (h : r.Named) (c : Nat) (f : Cell → Cell) : (r.modify c f).Named :=
  h.mono (fun _ _ hnames => hnames) (by simp [Roster.modify]) h.remote h.nodup

theorem Named.tried (h : r.Named) {a : Attempt}
    (ha : ∀ n c key, a = .begun n c key → r.Names c key) :
    (r.tried a).Named := by
  refine h.mono (fun c key hnames => ?_) (Nat.le_refl _) h.remote h.nodup
  rcases names_tried hnames with hnames | ⟨n, heq⟩
  · exact hnames
  · exact ha n c key heq

/-- A task is put somewhere for a key that is spoken of there, with the operation of the key. -/
theorem Named.put (h : r.Named) {st : Stand}
    (hplace : ∀ c key, st.place? = some (c, key) → r.Names c key)
    (hremote : ∀ c key op, st = .running c key op → op = key.remote) : (r.put n st).Named := by
  refine h.mono (fun c key hnames => ?_) (Nat.le_refl _) (fun m c key op hm => ?_) h.nodup
  · exact (names_put hnames).elim id (hplace c key)
  · rw [Roster.put, List.getElem?_set] at hm
    split at hm
    · split at hm
      · exact hremote c key op (Option.some.inj hm)
      · cases hm
    · exact h.remote m c key op hm

theorem Named.over (h : r.Named) (n : Nat) : (r.put n .over).Named :=
  h.put (by rintro _ _ ⟨⟩) (by rintro _ _ _ ⟨⟩)

/-- A new cell is for the key for which it is made. -/
theorem Named.enter (h : r.Named) (key : ResolverKey) :
    Named { r with keys := r.keys.put key r.cells.length, cells := r.cells ++ [{}] } := by
  -- What is spoken of with the new cell is the new key; with all others, what was before.
  have hnames : ∀ c key', Names { r with
      keys := r.keys.put key r.cells.length, cells := r.cells ++ [{}] } c key' →
      r.Names c key' ∨ c = r.cells.length ∧ key' = key := by
    rintro c key' (hkey | hat)
    · rw [Keyed.get?_put] at hkey
      split at hkey
      · next heq => exact Or.inr ⟨(Option.some.inj hkey).symm, heq.symm⟩
      · exact Or.inl (Or.inl hkey)
    · exact Or.inl (Or.inr hat)
  refine ⟨fun c key₁ key₂ h₁ h₂ => ?_, fun c key' hc => ?_, h.remote,
    Keyed.nodup_keys_put h.nodup _ _⟩
  · rcases hnames c key₁ h₁ with hold | ⟨rfl, rfl⟩
    · rcases hnames c key₂ h₂ with hold' | ⟨rfl, rfl⟩
      · exact h.one c key₁ key₂ hold hold'
      · exact absurd (h.there _ _ hold) (Nat.lt_irrefl _)
    · rcases hnames _ key₂ h₂ with hold | ⟨-, rfl⟩
      · exact absurd (h.there _ _ hold) (Nat.lt_irrefl _)
      · rfl
  · rw [List.length_append, List.length_singleton]
    rcases hnames c key' hc with hc | ⟨rfl, -⟩
    · exact Nat.lt_succ_of_lt (h.there c key' hc)
    · exact Nat.lt_succ_self _

/-- That keys do not count as begun any more leaves each cell for one key. -/
theorem Named.forget (h : r.Named) {keys : Keyed ResolverKey Nat}
    (hkeys : ∀ key c, keys.get? key = some c → r.keys.get? key = some c)
    (hnodup : keys.keys.Nodup) :
    Named { r with keys } := by
  refine h.mono ?_ (Nat.le_refl _) h.remote hnodup
  rintro c key (hkey | hrest)
  · exact Or.inl (hkeys key c hkey)
  · exact Or.inr hrest

theorem Named.spawn (h : r.Named) : Named { r with stands := r.stands ++ [.idle] } := by
  refine h.mono ?_ (Nat.le_refl _) (fun n c key op hn => ?_) h.nodup
  · rintro c key (hkey | ⟨n, st, hn, hplace⟩ | hbegun)
    · exact Or.inl hkey
    · have hst : st ≠ .idle := by
        rintro rfl
        cases hplace
      exact Or.inr (Or.inl ⟨n, st, (stand_concat_idle hst).mp hn, hplace⟩)
    · exact Or.inr (Or.inr hbegun)
  · exact h.remote n c key op ((stand_concat_idle (by rintro ⟨⟩)).mp hn)

/-- A task is put at a cell for a key that is spoken of there, and runs no resolver. -/
theorem Named.putAt (h : r.Named) {st : Stand} (hnames : r.Names c key)
    (hplace : st.place? = some (c, key)) (hremote : ∀ c key op, st ≠ .running c key op) :
    (r.put n st).Named := by
  refine h.put (fun c' key' hplace' => ?_) fun c' key' op heq => absurd heq (hremote c' key' op)
  obtain ⟨rfl, rfl⟩ := Prod.mk.inj (Option.some.inj (hplace.symm.trans hplace'))
  exact hnames

/-- A run is begun for a key that is spoken of with the cell. -/
theorem Named.begin (h : r.Named) (hnames : r.Names c key) :
    (((r.modify c (Cell.drivenBy n)).tried (.begun n c key)).put n
      (.running c key key.remote)).Named := by
  have htried := (h.modify c (Cell.drivenBy n)).tried (a := .begun n c key)
    fun n' c' key' heq => by
    cases heq
    exact hnames
  refine htried.put (fun c' key' hplace => ?_) fun c' key' op heq => ?_
  · cases hplace
    exact Or.inr (Or.inr ⟨n, List.mem_append_right _ (List.mem_singleton_self _)⟩)
  · cases heq
    rfl

theorem Named.work {op : Remote} (h : r.Named) (hworks : r.Work n c op u) : u.Named := by
  cases hworks with
  | still grows => exact h.grow grows
  | settle grows _ _ _ =>
    exact ((((h.grow grows).modify _ _).tried (a := .ended _ _ _) (by rintro _ _ _ ⟨⟩)).tried
      (a := .told _ _ _) (by rintro _ _ _ ⟨⟩)).over _
  | giveUp grows _ =>
    exact (((h.grow grows).modify _ _).tried (a := .dropped _ _) (by rintro _ _ _ ⟨⟩)).over _

/-- **Every step keeps each cell for one key.** -/
theorem Named.step (r u : Roster) (hstep : r.Step u) (h : r.Named) : u.Named := by
  -- A task that is somewhere speaks of its place.
  have hat : ∀ {n : Nat} {st : Stand} {c : Nat} {key : ResolverKey}, r.stands[n]? = some st →
      st.place? = some (c, key) → r.Names c key :=
    fun hn hplace => Or.inr (Or.inl ⟨_, _, hn, hplace⟩)
  cases hstep with
  | grow grows => exact h.grow grows
  | spawn => exact h.spawn
  | enter new => exact h.enter _
  | rest free => exact ⟨h.one, h.there, h.remote, h.nodup⟩
  | @rise n c key waiting =>
    have hline : Named { r with line := r.line.erase n } := ⟨h.one, h.there, h.remote, h.nodup⟩
    exact hline.putAt (hat waiting rfl) rfl (by rintro _ _ _ ⟨⟩)
  | come idle entered => exact h.putAt (Or.inl entered) rfl (by rintro _ _ _ ⟨⟩)
  | hear up found ended => exact (h.tried (a := .told _ _ _) (by rintro _ _ _ ⟨⟩)).over _
  | wait up found open_ taken other =>
    exact (h.modify _ _).putAt (hat up rfl) rfl (by rintro _ _ _ ⟨⟩)
  | begin up found open_ free => exact h.begin (hat up rfl)
  | work running works => exact h.work works
  | leave up found other => exact (h.modify _ _).over _
  | leaveRun up found own grows woken => exact (((h.grow grows).modify _ _).modify _ _).over _
  | finish idle => exact h.over _

/-! ### Who has the run, and who waits -/

/-- A task has the run for a cell, or it is to have it at its next turn. -/
def Leads (r : Roster) (n c : Nat) : Prop :=
  (∃ key, r.stands[n]? = some (.up c key)) ∨ (∃ key op, r.stands[n]? = some (.running c key op)) ∨
    (∃ key, r.stands[n]? = some (.waiting c key)) ∧ n ∈ r.line

/-- A task waits for a cell, or its turn has just come. -/
def Waits (r : Roster) (n c : Nat) : Prop :=
  ∃ key, r.stands[n]? = some (.up c key) ∨ r.stands[n]? = some (.waiting c key)

end Roster

/-- A cell is kept in order: no run is to be had once one has ended; as long as tasks wait, somebody
has the run; and those who have it or wait are at the cell. -/
structure Cell.Tended (r : Roster) (c : Nat) (cell : Cell) : Prop where
  closed : ∀ outcome, cell.outcome = some outcome → cell.driver = none
  led : cell.driver = none → cell.waiters = []
  nodup : cell.waiters.Nodup
  driver : ∀ n, cell.driver = some n → n ∉ cell.waiters ∧ r.Leads n c
  waiters : ∀ n ∈ cell.waiters, r.Waits n c

namespace Roster

variable {r u : Roster} {n m c : Nat} {key : ResolverKey}

/-- All cells are kept in order; whoever runs a resolver has the run, and whoever waits is known to
the cell or stands in line. -/
structure Tended (r : Roster) : Prop where
  cells : ∀ (c : Nat) (cell : Cell), r.cells[c]? = some cell → cell.Tended r c
  running : ∀ (n c : Nat) key op, r.stands[n]? = some (.running c key op) →
    ∃ cell : Cell, r.cells[c]? = some cell ∧ cell.driver = some n
  waiting : ∀ (n c : Nat) key, r.stands[n]? = some (.waiting c key) →
    ∃ cell : Cell, r.cells[c]? = some cell ∧ (n ∈ cell.waiters ∨ n ∈ r.line)

theorem Tended.fresh (name : String) (endpoints : Endpoints) :
    (Store.fresh name endpoints).roster.Tended where
  cells c cell h := by cases h
  running n c key op h := by cases h
  waiting n c key h := by cases h

theorem Leads.at (h : r.Leads n c) : ∃ key, r.At n c key := by
  rcases h with ⟨key, h⟩ | ⟨key, op, h⟩ | ⟨⟨key, h⟩, -⟩ <;> exact ⟨key, _, h, rfl⟩

theorem Waits.at (h : r.Waits n c) : ∃ key, r.At n c key := by
  obtain ⟨key, h | h⟩ := h <;> exact ⟨key, _, h, rfl⟩

/-- One task comes further, and perhaps leaves the line; all others stand where they stood. -/
structure Moves (r u : Roster) (n : Nat) (st : Stand) : Prop where
  stands : u.stands = r.stands.set n st
  line : ∀ m, m ≠ n → m ∈ r.line → m ∈ u.line

namespace Moves

variable {st st' : Stand}

theorem stand_of_ne (h : Moves r u n st) (hne : m ≠ n) : u.stands[m]? = r.stands[m]? := by
  rw [h.stands, List.getElem?_set_ne hne.symm]

theorem stand_self (h : Moves r u n st) (hn : r.stands[n]? = some st') :
    u.stands[n]? = some st := by
  rw [h.stands, List.getElem?_set_self (lt_of_stand hn)]

theorem leads (h : Moves r u n st) (hne : m ≠ n) (hleads : r.Leads m c) : u.Leads m c := by
  rw [Leads, h.stand_of_ne hne]
  exact hleads.imp_right (Or.imp_right (And.imp_right (h.line m hne)))

theorem waits (h : Moves r u n st) (hne : m ≠ n) (hwaits : r.Waits m c) : u.Waits m c := by
  rw [Waits, h.stand_of_ne hne]
  exact hwaits

/-- A task is put somewhere, and meanwhile others have gone on. -/
theorem put {v : Roster} (hstands : v.stands = r.stands) (hline : r.line ⊆ v.line) :
    Moves r (v.put n st) n st where
  stands := by rw [Roster.put, hstands]
  line _ _ hm := hline hm

/-- A cell is kept in order if the task that comes further is no stranger to it. -/
theorem tended (h : Moves r u n st) {cell : Cell} (hcell : cell.Tended r c)
    (hdriver : cell.driver = some n → u.Leads n c) (hwaiters : n ∈ cell.waiters → u.Waits n c) :
    cell.Tended u c where
  closed := hcell.closed
  led := hcell.led
  nodup := hcell.nodup
  driver m hm := by
    refine ⟨(hcell.driver m hm).1, ?_⟩
    by_cases hne : m = n
    · exact hne ▸ hdriver (hne ▸ hm)
    · exact h.leads hne (hcell.driver m hm).2
  waiters m hm := by
    by_cases hne : m = n
    · exact hne ▸ hwaiters (hne ▸ hm)
    · exact h.waits hne (hcell.waiters m hm)

end Moves

/-- A cell has changed, and no other. -/
def Turns (r u : Roster) (c : Nat) (cell : Cell) : Prop :=
  ∀ c', u.cells[c']? = if c' = c then some cell else r.cells[c']?

theorem Turns.self {cell : Cell} (hcells : u.cells = r.cells) (hcell : r.cells[c]? = some cell) :
    Turns r u c cell := by
  intro c'
  rw [hcells]
  split
  · next heq => rw [heq, hcell]
  · rfl

theorem Turns.modify {v : Roster} {cell : Cell} {f : Cell → Cell} (hv : v.cells = r.cells)
    (hcells : u.cells = v.cells.modify c f) (hcell : r.cells[c]? = some cell) :
    Turns r u c (f cell) := by
  intro c'
  rw [hcells, hv, List.getElem?_modify]
  by_cases hc : c' = c
  · subst hc
    simp [hcell]
  · simp [hc, Ne.symm hc]

/-- **A task does something at one cell**, and all cells are kept in order if this one is, and if
those who run a resolver or wait for it are still known there. -/
theorem Tended.act (h : r.Tended) {st st' : Stand} {cell cell' : Cell} (hn : r.stands[n]? = some st)
    (hst : ∀ c' key, st.place? = some (c', key) → c' = c) (hcell : r.cells[c]? = some cell)
    (hturns : Turns r u c cell') (hmoves : Moves r u n st') (htended : cell'.Tended u c)
    (hst' : ∀ c' key, st'.place? = some (c', key) → c' = c)
    (hrunning : ∀ key op, st' = .running c key op → cell'.driver = some n)
    (hwaiting : ∀ key, st' = .waiting c key → n ∈ cell'.waiters ∨ n ∈ u.line)
    (hdriver : ∀ m, m ≠ n → cell.driver = some m → cell'.driver = some m)
    (hwaiters : ∀ m, m ≠ n → m ∈ cell.waiters → m ∈ cell'.waiters ∨ m ∈ u.line) : u.Tended := by
  -- Whoever is at another cell is not the task that has done something.
  have hother : ∀ {c' m key}, c' ≠ c → r.At m c' key → m ≠ n := by
    rintro c' m key hc ⟨st₀, hst₀, hplace⟩ rfl
    obtain rfl := Option.some.inj (hn.symm.trans hst₀)
    exact hc (hst c' key hplace)
  have hfound : u.cells[c]? = some cell' := by rw [hturns c, if_pos rfl]
  refine ⟨fun c' x hx => ?_, fun m c' key op hm => ?_, fun m c' key hm => ?_⟩
  · rw [hturns c'] at hx
    split at hx
    · next hc =>
      obtain rfl := Option.some.inj hx
      exact hc ▸ htended
    · next hc =>
      have hx' := h.cells c' x hx
      refine hmoves.tended hx' (fun heq => ?_) fun hmem => ?_
      · obtain ⟨key, hat⟩ := (hx'.driver n heq).2.at
        exact absurd rfl (hother hc hat)
      · obtain ⟨key, hat⟩ := (hx'.waiters n hmem).at
        exact absurd rfl (hother hc hat)
  · by_cases hne : m = n
    · subst hne
      obtain rfl := Option.some.inj ((hmoves.stand_self hn).symm.trans hm)
      obtain rfl := hst' c' key rfl
      exact ⟨cell', hfound, hrunning key op rfl⟩
    · rw [hmoves.stand_of_ne hne] at hm
      obtain ⟨x, hx, hlead⟩ := h.running m c' key op hm
      by_cases hc : c' = c
      · subst hc
        obtain rfl := Option.some.inj (hcell.symm.trans hx)
        exact ⟨cell', hfound, hdriver m hne hlead⟩
      · exact ⟨x, by rw [hturns c', if_neg hc, hx], hlead⟩
  · by_cases hne : m = n
    · subst hne
      obtain rfl := Option.some.inj ((hmoves.stand_self hn).symm.trans hm)
      obtain rfl := hst' c' key rfl
      exact ⟨cell', hfound, hwaiting key rfl⟩
    · rw [hmoves.stand_of_ne hne] at hm
      obtain ⟨x, hx, hknown⟩ := h.waiting m c' key hm
      by_cases hc : c' = c
      · subst hc
        obtain rfl := Option.some.inj (hcell.symm.trans hx)
        exact ⟨cell', hfound,
          hknown.elim (hwaiters m hne) fun hline => Or.inr (hmoves.line m hne hline)⟩
      · exact ⟨x, by rw [hturns c', if_neg hc, hx], hknown.imp_right (hmoves.line m hne)⟩

/-- A task comes to a cell, or its turn there comes. -/
theorem Tended.rouse (h : r.Tended) {st : Stand} {cell : Cell} (hn : r.stands[n]? = some st)
    (hst : ∀ c' key, st.place? = some (c', key) → c' = c) (hcell : r.cells[c]? = some cell)
    (hcells : u.cells = r.cells) (hmoves : Moves r u n (.up c key)) : u.Tended := by
  have hup := hmoves.stand_self hn
  have htended : cell.Tended u c := hmoves.tended (h.cells c cell hcell)
    (fun _ => Or.inl ⟨key, hup⟩) fun _ => ⟨key, Or.inl hup⟩
  exact h.act hn hst hcell (.self hcells hcell) hmoves htended (by rintro _ _ ⟨⟩; rfl)
    (by rintro _ _ ⟨⟩) (by rintro _ ⟨⟩) (fun m _ hdriver => hdriver) fun m _ hwaits => Or.inl hwaits

/-- A task is done with its cell. -/
theorem Tended.part (h : r.Tended) {st : Stand} {cell cell' : Cell} (hn : r.stands[n]? = some st)
    (hplace : st.place? = some (c, key)) (hcell : r.cells[c]? = some cell)
    (hturns : Turns r u c cell') (hmoves : Moves r u n .over) (htended : cell'.Tended u c)
    (hdriver : ∀ m, m ≠ n → cell.driver = some m → cell'.driver = some m)
    (hwaiters : ∀ m, m ≠ n → m ∈ cell.waiters → m ∈ cell'.waiters ∨ m ∈ u.line) : u.Tended := by
  refine h.act hn (fun c' key' hplace' => ?_) hcell hturns hmoves htended (by rintro _ _ ⟨⟩)
    (by rintro _ _ ⟨⟩) (by rintro _ ⟨⟩) hdriver hwaiters
  exact congrArg Prod.fst (Option.some.inj (hplace'.symm.trans hplace))

/-- A task that has the run is done with its cell: the run is over or somebody else's, and nobody
who waits is forgotten. -/
theorem Tended.partRun (h : r.Tended) {st : Stand} {cell cell' : Cell}
    (hn : r.stands[n]? = some st) (hplace : st.place? = some (c, key))
    (hcell : r.cells[c]? = some cell) (hown : cell.driver = some n) (hturns : Turns r u c cell')
    (hmoves : Moves r u n .over) (htended : cell'.Tended u c)
    (hwaiters : ∀ m ∈ cell.waiters, m ∈ cell'.waiters ∨ m ∈ u.line) : u.Tended :=
  h.part hn hplace hcell hturns hmoves htended
    (fun _ hne hm => absurd (Option.some.inj (hm.symm.trans hown)) hne) fun m _ => hwaiters m

/-- Nobody has come to a new cell, or left one. -/
theorem Tended.mono (h : r.Tended)
    (hold : ∀ (c : Nat) (cell : Cell), r.cells[c]? = some cell → u.cells[c]? = some cell)
    (hnew : ∀ (c : Nat) (cell : Cell), u.cells[c]? = some cell →
      r.cells[c]? = some cell ∨ cell = {})
    (hstands : ∀ (m : Nat) (st : Stand), st.place? ≠ none →
      (u.stands[m]? = some st ↔ r.stands[m]? = some st))
    (hline : ∀ (m c : Nat) key, r.stands[m]? = some (.waiting c key) → m ∈ r.line → m ∈ u.line) :
    u.Tended := by
  have hup : ∀ (m c : Nat) key, u.stands[m]? = some (.up c key) ↔ r.stands[m]? = some (.up c key) :=
    fun m c key => hstands m _ (by simp [Stand.place?])
  have hrunning : ∀ (m c : Nat) key op, u.stands[m]? = some (.running c key op) ↔
      r.stands[m]? = some (.running c key op) :=
    fun m c key op => hstands m _ (by simp [Stand.place?])
  have hwaiting : ∀ (m c : Nat) key, u.stands[m]? = some (.waiting c key) ↔
      r.stands[m]? = some (.waiting c key) := fun m c key => hstands m _ (by simp [Stand.place?])
  refine ⟨fun c cell hcell => ?_, fun m c key op hm => ?_, fun m c key hm => ?_⟩
  · rcases hnew c cell hcell with hcell | rfl
    · have ht := h.cells c cell hcell
      refine ⟨ht.closed, ht.led, ht.nodup, fun m hm => ⟨(ht.driver m hm).1, ?_⟩, fun m hm => ?_⟩
      · simp only [Leads, hup, hrunning, hwaiting]
        refine (ht.driver m hm).2.imp_right (Or.imp_right ?_)
        rintro ⟨⟨key, hkey⟩, hmem⟩
        exact ⟨⟨key, hkey⟩, hline m c key hkey hmem⟩
      · simp only [Waits, hup, hwaiting]
        exact ht.waiters m hm
    · exact ⟨by rintro _ ⟨⟩, fun _ => rfl, List.nodup_nil, by rintro _ ⟨⟩, by rintro _ ⟨⟩⟩
  · obtain ⟨cell, hcell, hdriver⟩ := h.running m c key op ((hrunning m c key op).mp hm)
    exact ⟨cell, hold c cell hcell, hdriver⟩
  · have hm' := (hwaiting m c key).mp hm
    obtain ⟨cell, hcell, hknown⟩ := h.waiting m c key hm'
    exact ⟨cell, hold c cell hcell, hknown.imp_right (hline m c key hm')⟩

/-- Nothing but the line has changed, and whoever waits has stayed in it. -/
theorem Tended.congr (h : r.Tended) (hcells : u.cells = r.cells) (hstands : u.stands = r.stands)
    (hline : ∀ (m c : Nat) key, r.stands[m]? = some (.waiting c key) → m ∈ r.line → m ∈ u.line) :
    u.Tended :=
  h.mono (fun _ _ hcell => hcells ▸ hcell) (fun _ _ hcell => Or.inl (hcells ▸ hcell))
    (fun _ _ _ => by rw [hstands]) hline

theorem Tended.grow (h : r.Tended) (grows : r.Grows u) : u.Tended :=
  h.congr grows.cells_eq grows.stands_eq fun _ _ _ _ hm => grows.line_subset hm

theorem Tended.forget (h : r.Tended) (keys : Keyed ResolverKey Nat) : Tended { r with keys } :=
  h.mono (fun _ _ hcell => hcell) (fun _ _ hcell => Or.inl hcell) (fun _ _ _ => Iff.rfl)
    fun _ _ _ _ hm => hm

/-! ### What is done to a cell -/

section Cell

variable {cell : Cell}

/-- To be left by a task that does not wait changes nothing. -/
theorem without_of_not_mem (h : n ∉ cell.waiters) : cell.without n = cell := by
  have hall : ∀ m ∈ cell.waiters, (m != n) = true := by
    intro m hm
    exact bne_iff_ne.mpr fun heq => h (heq ▸ hm)
  rw [Cell.without, List.filter_eq_self.mpr hall]

/-- Whoever waits first has the run, if the one who had it has gone. -/
theorem tended_handOver (h : cell.Tended r c) (hdriver : cell.driver = some n)
    (hmoves : Moves r u n .over) (hwoken : cell.waiters.head?.toList ⊆ u.line) :
    cell.handOver.Tended u c := by
  have hopen : ∀ outcome, cell.outcome ≠ some outcome := by
    intro outcome hsome
    rw [h.closed outcome hsome] at hdriver
    cases hdriver
  have hnot := (h.driver n hdriver).1
  have hwaits : ∀ m ∈ cell.waiters, u.Waits m c := by
    intro m hm
    refine hmoves.waits (fun heq => hnot (heq ▸ hm)) (h.waiters m hm)
  have hnodup := h.nodup
  rw [Cell.handOver]
  cases hwaiters : cell.waiters with
  | nil => exact ⟨fun _ _ => rfl, fun _ => rfl, List.nodup_nil, by rintro _ ⟨⟩, by rintro _ ⟨⟩⟩
  | cons w rest =>
    rw [hwaiters] at hnodup hwaits hwoken
    obtain ⟨hw, hrest⟩ := List.nodup_cons.mp hnodup
    have hline : w ∈ u.line := hwoken List.mem_cons_self
    refine ⟨fun outcome hsome => absurd hsome (hopen outcome), by rintro ⟨⟩, hrest, fun m hm => ?_,
      fun m hm => hwaits m (List.mem_cons_of_mem w hm)⟩
    obtain rfl := Option.some.inj hm
    obtain ⟨key, hkey | hkey⟩ := hwaits w List.mem_cons_self
    · exact ⟨hw, Or.inl ⟨key, hkey⟩⟩
    · exact ⟨hw, Or.inr (Or.inr ⟨⟨key, hkey⟩, hline⟩)⟩

theorem mem_waiters_awaitedBy (n : Nat) (cell : Cell) : n ∈ (cell.awaitedBy n).waiters := by
  rw [Cell.awaitedBy]
  split
  · next h => exact List.contains_iff_mem.mp h
  · exact List.mem_append_right _ (List.mem_singleton_self n)

theorem waiters_subset_awaitedBy (n : Nat) (cell : Cell) :
    cell.waiters ⊆ (cell.awaitedBy n).waiters := by
  rw [Cell.awaitedBy]
  split
  · exact fun _ hm => hm
  · exact List.subset_append_left _ _

theorem driver_awaitedBy (n : Nat) (cell : Cell) : (cell.awaitedBy n).driver = cell.driver := by
  rw [Cell.awaitedBy]
  split <;> rfl

/-- Whoever waits while another task has the run is known to the cell. -/
theorem tended_awaitedBy (h : cell.Tended r c) (hdriver : cell.driver = some m) (hother : m ≠ n)
    (hmoves : Moves r u n (.waiting c key))
    (hn : u.stands[n]? = some (.waiting c key)) : (cell.awaitedBy n).Tended u c := by
  have hown : cell.driver ≠ some n := fun heq => hother (Option.some.inj (hdriver.symm.trans heq))
  have hwaits : u.Waits n c := ⟨key, Or.inr hn⟩
  have ht := hmoves.tended h (fun heq => absurd heq hown) fun _ => hwaits
  rw [Cell.awaitedBy]
  split
  · exact ht
  · next hnew =>
    have hnot : n ∉ cell.waiters := fun hmem => hnew (List.contains_iff_mem.mpr hmem)
    refine ⟨ht.closed, fun hnone => (by cases hnone.symm.trans hdriver), ?_, fun k hk => ?_,
      fun k hk => ?_⟩
    · exact List.nodup_append.mpr ⟨ht.nodup, List.nodup_singleton n, fun a ha b hb heq =>
        hnot (List.mem_singleton.mp hb ▸ heq ▸ ha)⟩
    · refine ⟨fun hmem => ?_, (ht.driver k hk).2⟩
      rcases List.mem_append.mp hmem with hmem | hmem
      · exact (ht.driver k hk).1 hmem
      · exact hown (List.mem_singleton.mp hmem ▸ hk)
    · rcases List.mem_append.mp hk with hk | hk
      · exact ht.waiters k hk
      · exact List.mem_singleton.mp hk ▸ hwaits

/-- Whoever begins a run has it. -/
theorem tended_drivenBy {op : Remote} (h : cell.Tended r c)
    (hfree : cell.driver = none ∨ cell.driver = some n) (hopen : cell.outcome = none)
    (hmoves : Moves r u n (.running c key op)) (hn : u.stands[n]? = some (.running c key op)) :
    (cell.drivenBy n).Tended u c := by
  have hnot : n ∉ cell.waiters := by
    rcases hfree with hnone | hown
    · rw [h.led hnone]
      exact List.not_mem_nil
    · exact (h.driver n hown).1
  refine ⟨fun outcome hsome => (by cases hopen.symm.trans hsome), by rintro ⟨⟩, h.nodup,
    fun k hk => ?_, fun k hk => ?_⟩
  · obtain rfl := Option.some.inj hk
    exact ⟨hnot, Or.inr (Or.inl ⟨key, op, hn⟩)⟩
  · exact hmoves.waits (fun heq => hnot (heq ▸ hk)) (h.waiters k hk)

/-- Where a run has ended, nobody has one or waits. -/
theorem tended_settled (u : Roster) (c : Nat) (outcome : Except Failure Unit) :
    (Cell.settled outcome).Tended u c :=
  ⟨fun _ _ => rfl, fun _ => rfl, List.nodup_nil, by rintro _ ⟨⟩, by rintro _ ⟨⟩⟩

/-- Whoever waits no longer is not known to the cell any more. -/
theorem tended_without (h : cell.Tended r c) (hother : cell.driver ≠ some n)
    (hmoves : Moves r u n .over) : (cell.without n).Tended u c := by
  refine ⟨h.closed, fun hnone => ?_, h.nodup.filter _, fun k hk => ?_, fun k hk => ?_⟩
  · rw [Cell.without, h.led hnone, List.filter_nil]
  · refine ⟨fun hmem => (h.driver k hk).1 (List.mem_filter.mp hmem).1, ?_⟩
    exact hmoves.leads (fun heq => hother (heq ▸ hk)) (h.driver k hk).2
  · obtain ⟨hmem, hne⟩ := List.mem_filter.mp hk
    exact hmoves.waits (bne_iff_ne.mp hne) (h.waiters k hmem)

/-- Whoever waited for a cell waits on, or has the run and has been woken. -/
theorem mem_waiters_handOver {line : List Nat} (hm : m ∈ cell.waiters)
    (hwoken : cell.waiters.head?.toList ⊆ line) : m ∈ cell.handOver.waiters ∨ m ∈ line := by
  rw [Cell.handOver]
  cases hwaiters : cell.waiters with
  | nil =>
    rw [hwaiters] at hm
    exact absurd hm List.not_mem_nil
  | cons w rest =>
    rw [hwaiters] at hm hwoken
    rcases List.mem_cons.mp hm with rfl | hm
    · exact Or.inr (hwoken List.mem_cons_self)
    · exact Or.inl hm

end Cell

/-! ### What a step does -/

section Step

variable {v : Roster} {op : Remote} {cell : Cell}

theorem Tended.spawn (h : r.Tended) : Tended { r with stands := r.stands ++ [.idle] } := by
  refine h.mono (fun c cell hcell => hcell) (fun c cell hcell => Or.inl hcell)
    (fun m st hst => stand_concat_idle ?_) fun m c key _ hm => hm
  rintro rfl
  exact hst rfl

/-- Nobody is at a new cell. -/
theorem Tended.enter (h : r.Tended) (key : ResolverKey) :
    Tended { r with keys := r.keys.put key r.cells.length, cells := r.cells ++ [{}] } := by
  refine h.mono (fun c cell hcell => ?_) (fun c cell hcell => ?_) (fun m st _ => Iff.rfl)
    fun m c key _ hm => hm
  · exact (List.getElem?_append_left (List.getElem?_eq_some_iff.mp hcell).1).trans hcell
  · rw [List.getElem?_append] at hcell
    split at hcell
    · exact Or.inl hcell
    · exact Or.inr (List.mem_singleton.mp (List.mem_of_getElem? hcell))

theorem Tended.rest (h : r.Tended) (hfree : ∀ c key, r.stands[n]? ≠ some (.waiting c key)) :
    Tended { r with line := r.line.erase n } := by
  refine h.congr rfl rfl fun m c key hwaiting hm => ?_
  have hne : m ≠ n := fun heq => hfree c key (heq ▸ hwaiting)
  exact (List.mem_erase_of_ne hne).mpr hm

theorem Tended.rise (h : r.Tended) (hwaiting : r.stands[n]? = some (.waiting c key)) :
    ({ r with line := r.line.erase n }.put n (.up c key)).Tended := by
  obtain ⟨cell, hcell, -⟩ := h.waiting n c key hwaiting
  exact h.rouse hwaiting (by rintro _ _ ⟨⟩; rfl) hcell rfl
    ⟨rfl, fun m hne hm => (List.mem_erase_of_ne hne).mpr hm⟩

theorem Tended.come (h : r.Tended) (hidle : r.stands[n]? = some .idle)
    (hcell : r.cells[c]? = some cell) : (r.put n (.up c key)).Tended :=
  h.rouse hidle (by rintro _ _ ⟨⟩) hcell rfl (.put rfl fun _ hm => hm)

/-- Where a run has ended nobody has one or waits, so nobody is missed. -/
theorem Tended.hear (h : r.Tended) {outcome : Except Failure Unit}
    (hup : r.stands[n]? = some (.up c key)) (hcell : r.cells[c]? = some cell)
    (hended : cell.outcome = some outcome) :
    ((r.tried (.told n c outcome)).put n .over).Tended := by
  have ht := h.cells c cell hcell
  have hnone := ht.closed outcome hended
  have hmoves : Moves r ((r.tried (.told n c outcome)).put n .over) n .over :=
    .put rfl fun _ hm => hm
  have htended := hmoves.tended ht (fun heq => by cases hnone.symm.trans heq)
    fun hmem => absurd (ht.led hnone ▸ hmem) List.not_mem_nil
  exact h.part hup rfl hcell (.self rfl hcell) hmoves htended (fun m _ hdriver => hdriver)
    fun m _ hwaits => Or.inl hwaits

theorem Tended.wait (h : r.Tended) (hup : r.stands[n]? = some (.up c key))
    (hcell : r.cells[c]? = some cell) (htaken : cell.driver = some m) (hother : m ≠ n) :
    ((r.modify c (Cell.awaitedBy n)).put n (.waiting c key)).Tended := by
  have hmoves : Moves r ((r.modify c (Cell.awaitedBy n)).put n (.waiting c key)) n
      (.waiting c key) := .put rfl fun _ hm => hm
  have htended := tended_awaitedBy (h.cells c cell hcell) htaken hother hmoves
    (hmoves.stand_self hup)
  exact h.act hup (by rintro _ _ ⟨⟩; rfl) hcell (.modify rfl rfl hcell) hmoves htended
    (by rintro _ _ ⟨⟩; rfl) (by rintro _ _ ⟨⟩) (fun _ _ => Or.inl (mem_waiters_awaitedBy n cell))
    (fun k _ hk => (driver_awaitedBy n cell).trans hk)
    fun k _ hk => Or.inl (waiters_subset_awaitedBy n cell hk)

theorem Tended.begin (h : r.Tended) (hup : r.stands[n]? = some (.up c key))
    (hcell : r.cells[c]? = some cell) (hopen : cell.outcome = none)
    (hfree : cell.driver = none ∨ cell.driver = some n) :
    (((r.modify c (Cell.drivenBy n)).tried (.begun n c key)).put n
      (.running c key op)).Tended := by
  have hmoves : Moves r (((r.modify c (Cell.drivenBy n)).tried (.begun n c key)).put n
      (.running c key op)) n (.running c key op) := .put rfl fun _ hm => hm
  have htended := tended_drivenBy (h.cells c cell hcell) hfree hopen hmoves
    (hmoves.stand_self hup)
  -- No other task has the run that this one begins.
  have hown : ∀ k, k ≠ n → cell.driver = some k → (cell.drivenBy n).driver = some k := by
    intro k hne hk
    rcases hfree with hnone | hown
    · cases hnone.symm.trans hk
    · exact absurd (Option.some.inj (hk.symm.trans hown)) hne
  exact h.act hup (by rintro _ _ ⟨⟩; rfl) hcell (.modify rfl rfl hcell) hmoves htended
    (by rintro _ _ ⟨⟩; rfl) (fun _ _ _ => rfl) (by rintro _ ⟨⟩) hown fun k _ hk => Or.inl hk

/-- Once the run has ended, everybody who waited is in line. -/
theorem Tended.settle (h : r.Tended) {outcome : Except Failure Unit}
    (hrunning : r.stands[n]? = some (.running c key op)) (grows : r.Grows v)
    (hwoken : ∀ cell, r.cells[c]? = some cell → cell.waiters ⊆ v.line) :
    ((((v.modify c fun _ => .settled outcome).tried (.ended n c outcome)).tried
      (.told n c outcome)).put n .over).Tended := by
  obtain ⟨cell, hcell, hdriver⟩ := h.running n c key op hrunning
  exact h.partRun hrunning rfl hcell hdriver
    (.modify (f := fun _ => .settled outcome) grows.cells_eq rfl hcell)
    (.put grows.stands_eq grows.line_subset) (tended_settled _ c outcome)
    fun k hk => Or.inr (hwoken cell hcell hk)

/-- Once a task has given its run up, the first who waited has it and is in line. -/
theorem Tended.giveUp (h : r.Tended) (hrunning : r.stands[n]? = some (.running c key op))
    (grows : r.Grows v)
    (hwoken : ∀ cell, r.cells[c]? = some cell → cell.waiters.head?.toList ⊆ v.line) :
    (((v.modify c Cell.handOver).tried (.dropped n c)).put n .over).Tended := by
  obtain ⟨cell, hcell, hdriver⟩ := h.running n c key op hrunning
  have hmoves : Moves r (((v.modify c Cell.handOver).tried (.dropped n c)).put n .over) n .over :=
    .put grows.stands_eq grows.line_subset
  exact h.partRun hrunning rfl hcell hdriver (.modify grows.cells_eq rfl hcell) hmoves
    (tended_handOver (h.cells c cell hcell) hdriver hmoves (hwoken cell hcell))
    fun k hk => mem_waiters_handOver hk (hwoken cell hcell)

theorem Tended.work (h : r.Tended) (hrunning : r.stands[n]? = some (.running c key op))
    (hworks : r.Work n c op u) : u.Tended := by
  cases hworks with
  | still grows => exact h.grow grows
  | settle grows _ _ woken => exact h.settle hrunning grows woken
  | giveUp grows woken => exact h.giveUp hrunning grows woken

theorem Tended.leave (h : r.Tended) (hup : r.stands[n]? = some (.up c key))
    (hcell : r.cells[c]? = some cell) (hother : cell.driver ≠ some n) :
    ((r.modify c (Cell.without n)).put n .over).Tended := by
  have hmoves : Moves r ((r.modify c (Cell.without n)).put n .over) n .over :=
    .put rfl fun _ hm => hm
  exact h.part hup rfl hcell (.modify rfl rfl hcell) hmoves
    (tended_without (h.cells c cell hcell) hother hmoves) (fun k _ hk => hk)
    fun k hne hk => Or.inl (List.mem_filter.mpr ⟨hk, bne_iff_ne.mpr hne⟩)

/-- Whoever is to have the run does not wait, so that the cell is without it as it was. -/
theorem Tended.leaveRun (h : r.Tended) (hup : r.stands[n]? = some (.up c key))
    (hcell : r.cells[c]? = some cell) (hown : cell.driver = some n) (grows : r.Grows v)
    (hwoken : (cell.without n).waiters.head?.toList ⊆ v.line) :
    (((v.modify c (Cell.without n)).modify c Cell.handOver).put n .over).Tended := by
  have ht := h.cells c cell hcell
  have hwithout : cell.without n = cell := without_of_not_mem (ht.driver n hown).1
  have hcells : ((v.modify c (Cell.without n)).modify c Cell.handOver).cells
      = v.cells.modify c fun cell => (cell.without n).handOver := List.modify_modify_eq _ _ _ _
  have hturns : Turns r (((v.modify c (Cell.without n)).modify c Cell.handOver).put n .over) c
      (cell.without n).handOver :=
    .modify (f := fun cell => (cell.without n).handOver) grows.cells_eq hcells hcell
  have hmoves : Moves r (((v.modify c (Cell.without n)).modify c Cell.handOver).put n .over) n
      .over := .put grows.stands_eq grows.line_subset
  rw [hwithout] at hturns hwoken
  exact h.partRun hup rfl hcell hown hturns hmoves (tended_handOver ht hown hmoves hwoken)
    fun k hk => mem_waiters_handOver hk hwoken

/-- A task that was nowhere still is nowhere. -/
theorem Tended.finish (h : r.Tended) (hidle : r.stands[n]? = some .idle) :
    (r.put n .over).Tended := by
  refine h.mono (fun c cell hcell => hcell) (fun c cell hcell => Or.inl hcell)
    (fun m st hst => ?_) fun m c key _ hm => hm
  have hmoves : Moves r (r.put n .over) n .over := .put rfl fun _ hm => hm
  by_cases hne : m = n
  · subst hne
    rw [hmoves.stand_self hidle, hidle]
    refine iff_of_false (fun heq => ?_) fun heq => ?_
    · exact hst (Option.some.inj heq ▸ rfl)
    · exact hst (Option.some.inj heq ▸ rfl)
  · rw [hmoves.stand_of_ne hne]

end Step

/-- **Every step keeps cells in order.** -/
theorem Tended.step (r u : Roster) (hstep : r.Step u) (hplaced : r.Placed) (h : r.Tended) :
    u.Tended := by
  cases hstep with
  | grow grows => exact h.grow grows
  | spawn => exact h.spawn
  | enter new => exact h.enter _
  | rest free => exact h.rest free
  | rise waiting => exact h.rise waiting
  | come idle entered =>
    exact h.come idle (List.getElem?_eq_getElem (hplaced.keys _ _ entered))
  | hear up found ended => exact h.hear up found ended
  | wait up found open_ taken other => exact h.wait up found taken other
  | begin up found open_ free => exact h.begin up found open_ free
  | work running works => exact h.work running works
  | leave up found other => exact h.leave up found other
  | leaveRun up found own grows woken => exact h.leaveRun up found own grows woken
  | finish idle => exact h.finish idle

end Roster

end RemoteSettings
