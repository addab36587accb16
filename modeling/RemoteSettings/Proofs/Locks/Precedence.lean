import RemoteSettings.Proofs.Locks.WakeUp

/-!
# No request is overtaken

A request that can be granted is granted at once, and the queue is not even looked at.  Still no
request overtakes one that waits and asks for no more than it does: an active lock stands in the
way of whoever waits, and it stands in the way of all who ask for more as well.

What happens to requests is written down as a list of events, of a scan as of a single request.  A
*line* is what such a list says of who waits, and it admits an event only if nobody who came before
is passed over.  The moves of a table keep to its line, and what is said of precedence is said of
lines.

## Main definitions

* `LockEvent`, `LockTable.events`, `LockTable.story` — what happens to requests.
* `Lock.Covers` — a lock is at least what a request asks for.
* `Line`, `Line.Admits`, `Line.Serves` — who waits, and what may happen next.

## Main results

* `Line.Serves.not_overtaken`, `Line.Serves.in_order` — what it means that a line is kept to.
* `LockTable.serves_events` — every move keeps to the line.
* `LockTable.no_overtaking` — **who waits is not overtaken** by whoever came later and asks for at
  least as much.
-/

namespace RemoteSettings

/-- A lock is at least what a request asks for: it is of the same store, its scope contains that of
the request, and it is exclusive if the request is. -/
def Lock.Covers (l : Lock) (w : Waiter) : Prop :=
  l.store = w.store ∧ l.scope.segments <+: w.scope.segments ∧
    (l.mode = .exclusive ∨ w.mode = .shared)

/-- Whatever stands in the way of a request stands in the way of all who ask for more. -/
theorem Waiter.BlockedBy.of_covers {w : Waiter} {b : Lock} (h : w.BlockedBy b) {l : Lock}
    (hl : l.Covers w) (ticket : Nat) : Waiter.BlockedBy (LockTable.served (ticket, l)) b := by
  obtain ⟨hstore, hmode, hscope⟩ := h
  obtain ⟨hstore', hscope', hmode'⟩ := hl
  refine ⟨hstore.trans hstore'.symm, ?_, ?_⟩
  · rcases hmode with hexclusive | hexclusive
    · refine Or.inl (hmode'.resolve_right fun hshared => ?_)
      rw [hshared] at hexclusive
      cases hexclusive
    · exact Or.inr hexclusive
  · rcases hscope with habove | hbelow
    · -- Both lie above the request, so one of them lies above the other.
      exact List.prefix_or_prefix_of_prefix habove hscope'
    · exact Or.inr (hscope'.trans hbelow)

/-! ### Events -/

/-- What happens to requests. -/
inductive LockEvent
  /-- A request has to wait. -/
  | queued (w : Waiter)
  /-- A lock is granted at once, or to the ticket of a waiter, who may just have vanished. -/
  | granted (ticket : Option Nat) (lock : Lock)
  /-- A waiter gives up before a lock is granted. -/
  | cancelled (ticket : Nat)
  deriving DecidableEq

/-- The request that has to wait. -/
def LockEvent.request? : LockEvent → Option Waiter
  | queued w => some w
  | _ => none

/-- The lock that is granted. -/
def LockEvent.lock? : LockEvent → Option Lock
  | granted _ l => some l
  | _ => none

namespace LockTable

/-- What happens while requests are scanned. -/
def scanEvents (vanishing : Nat → Bool) : List Waiter → LockTable → List LockEvent
  | [], _ => []
  | w :: rest, t =>
    if t.conflicts w.store w.scope w.mode then scanEvents vanishing rest (t.postpone w)
    else
      .granted (some w.ticket) (t.nextLock w.store w.scope w.mode) ::
        scanEvents vanishing rest (if vanishing w.ticket then t.miss w else t.send w)

/-- What happens when the lock of a number is released. -/
def releaseEvents (vanishing : Nat → Bool) (t : LockTable) (id : Nat) : List LockEvent :=
  if t.active.any (·.id == id) then
    scanEvents vanishing t.waiting { t.remove id with waiting := [] }
  else []

/-- What happens in a move. -/
def events (t : LockTable) : LockMove → List LockEvent
  | .acquire store scope mode =>
    match (t.acquire store scope mode).1 with
    | .inl lock => [.granted none lock]
    | .inr ticket => [.queued ⟨ticket, store, scope, mode⟩]
  | .collect _ => []
  | .release vanishing id => t.releaseEvents vanishing id
  | .abandon vanishing ticket =>
    match t.sent.get? ticket with
    | some lock => (t.collect ticket).2.releaseEvents vanishing lock.id
    | none => [.cancelled ticket]

/-- What happens in moves one after another. -/
def story (t : LockTable) : List LockMove → List LockEvent
  | [] => []
  | m :: ms => t.events m ++ (t.move m).story ms

end LockTable

/-! ### Lines -/

/-- The requests that wait, in the order in which they came, and the numbers to be given next. -/
structure Line where
  waiting : List Waiter := []
  nextId : Nat := 0
  nextTicket : Nat := 0

namespace Line

open LockTable (served)

/-- The line after an event. -/
def next (q : Line) : LockEvent → Line
  | .queued w => { q with waiting := q.waiting ++ [w], nextTicket := q.nextTicket + 1 }
  | .granted ticket _ =>
    { q with waiting := q.waiting.filter (some ·.ticket != ticket), nextId := q.nextId + 1 }
  | .cancelled ticket => { q with waiting := q.waiting.filter (·.ticket != ticket) }

/-- The line after events one after another. -/
def after (q : Line) (es : List LockEvent) : Line := es.foldl next q

/-- An event keeps to the line: numbers are given in their order, a lock that is granted to a ticket
is the one that the waiter asks for, and it covers no request that came before and still waits. -/
def Admits (q : Line) : LockEvent → Prop
  | .queued w => w.ticket = q.nextTicket
  | .granted ticket l =>
    l.id = q.nextId ∧ (∀ k, ticket = some k → served (k, l) ∈ q.waiting) ∧
      ∀ w ∈ q.waiting, (∀ k, ticket = some k → w.ticket < k) → ¬l.Covers w
  | .cancelled _ => True

/-- Each event keeps to the line when it happens. -/
def Serves : Line → List LockEvent → Prop
  | _, [] => True
  | q, e :: es => q.Admits e ∧ (q.next e).Serves es

variable {q : Line} {es : List LockEvent} {w : Waiter}

theorem after_append (q : Line) (es es' : List LockEvent) :
    q.after (es ++ es') = (q.after es).after es' := List.foldl_append

theorem serves_append {es' : List LockEvent} :
    q.Serves (es ++ es') ↔ q.Serves es ∧ (q.after es).Serves es' := by
  induction es generalizing q with
  | nil => simp [Serves, after]
  | cons e es ih =>
    rw [List.cons_append, Serves, ih, Serves, and_assoc]
    rfl

/-! ### Who waits -/

theorem mem_waiting_next {e : LockEvent} (h : w ∈ (q.next e).waiting) :
    w ∈ q.waiting ∨ e = .queued w := by
  cases e with
  | queued w' =>
    refine (List.mem_append.mp h).imp_right fun hw => ?_
    rw [List.mem_singleton.mp hw]
  | granted ticket l => exact Or.inl (List.mem_filter.mp h).1
  | cancelled ticket => exact Or.inl (List.mem_filter.mp h).1

/-- Whoever waits has waited before or has been queued since. -/
theorem mem_waiting_after (h : w ∈ (q.after es).waiting) :
    w ∈ q.waiting ∨ .queued w ∈ es := by
  induction es generalizing q with
  | nil => exact Or.inl h
  | cons e es ih =>
    rcases ih h with hnext | hqueued
    · refine (mem_waiting_next hnext).imp_right fun he => ?_
      rw [he]
      exact List.mem_cons_self
    · exact Or.inr (List.mem_cons_of_mem e hqueued)

/-- Whoever waits goes on waiting until a lock is granted or the ticket is given up. -/
theorem mem_waiting_of_mem (hw : w ∈ q.waiting) (hgranted : ∀ l, .granted (some w.ticket) l ∉ es)
    (hcancelled : .cancelled w.ticket ∉ es) : w ∈ (q.after es).waiting := by
  induction es generalizing q with
  | nil => exact hw
  | cons e es ih =>
    have hnext : w ∈ (q.next e).waiting := by
      cases e with
      | queued w' => exact List.mem_append_left _ hw
      | granted ticket l =>
        refine List.mem_filter.mpr ⟨hw, bne_iff_ne.mpr ?_⟩
        rintro rfl
        exact hgranted l List.mem_cons_self
      | cancelled ticket =>
        refine List.mem_filter.mpr ⟨hw, bne_iff_ne.mpr ?_⟩
        rintro rfl
        exact hcancelled List.mem_cons_self
    exact ih hnext (fun l hl => hgranted l (List.mem_cons_of_mem e hl))
      fun hc => hcancelled (List.mem_cons_of_mem e hc)

/-! ### Numbers -/

theorem nextTicket_le (q : Line) (es : List LockEvent) :
    q.nextTicket ≤ (q.after es).nextTicket := by
  induction es generalizing q with
  | nil => exact Nat.le_refl _
  | cons e es ih =>
    refine Nat.le_trans ?_ (ih (q.next e))
    cases e <;> simp [next]

/-- Tickets are given in their order. -/
theorem Serves.tickets (h : q.Serves es) :
    List.range q.nextTicket ++ (es.filterMap LockEvent.request?).map (·.ticket)
      = List.range (q.after es).nextTicket := by
  induction es generalizing q with
  | nil => simp [after]
  | cons e es ih =>
    obtain ⟨he, hes⟩ := h
    refine Eq.trans ?_ (ih hes)
    cases e with
    | queued w' =>
      have hticket : w'.ticket = q.nextTicket := he
      simp [LockEvent.request?, next, hticket, List.range_succ]
    | granted ticket l => rfl
    | cancelled ticket => rfl

/-- Locks are numbered in the order in which they are granted. -/
theorem Serves.ids (h : q.Serves es) :
    List.range q.nextId ++ (es.filterMap LockEvent.lock?).map (·.id)
      = List.range (q.after es).nextId := by
  induction es generalizing q with
  | nil => simp [after]
  | cons e es ih =>
    obtain ⟨he, hes⟩ := h
    refine Eq.trans ?_ (ih hes)
    cases e with
    | granted ticket l =>
      have hid : l.id = q.nextId := he.1
      simp [LockEvent.lock?, next, hid, List.range_succ]
    | queued w' => rfl
    | cancelled ticket => rfl

/-- A request that is queued gets a ticket that is still to be given. -/
theorem Serves.le_ticket (h : q.Serves es) (hw : .queued w ∈ es) : q.nextTicket ≤ w.ticket := by
  obtain ⟨before, rest, rfl⟩ := List.append_of_mem hw
  obtain ⟨-, hadmits, -⟩ := serves_append.mp h
  have hticket : w.ticket = (q.after before).nextTicket := hadmits
  rw [hticket]
  exact q.nextTicket_le before

/-- A lock that has been granted has a number that is not to be given any more. -/
theorem Serves.id_lt (h : q.Serves es) {ticket : Option Nat} {l : Lock}
    (hl : .granted ticket l ∈ es) : l.id < (q.after es).nextId := by
  have hmem : l.id ∈ (es.filterMap LockEvent.lock?).map (·.id) :=
    List.mem_map_of_mem (List.mem_filterMap.mpr ⟨_, hl, rfl⟩)
  rw [← List.mem_range, ← h.ids]
  exact List.mem_append_right _ hmem

/-- The tickets of those who wait rise, and all of them have been given. -/
structure Ordered (q : Line) : Prop where
  rising : q.waiting.Pairwise (·.ticket < ·.ticket)
  given : ∀ w ∈ q.waiting, w.ticket < q.nextTicket

theorem Ordered.filter (hq : q.Ordered) (keep : Waiter → Bool) (nextId : Nat) :
    Ordered ⟨q.waiting.filter keep, nextId, q.nextTicket⟩ where
  rising := hq.rising.sublist List.filter_sublist
  given w hw := hq.given w (List.mem_filter.mp hw).1

theorem Ordered.next (hq : q.Ordered) {e : LockEvent} (he : q.Admits e) : (q.next e).Ordered := by
  cases e with
  | queued w' =>
    have hticket : w'.ticket = q.nextTicket := he
    refine ⟨List.pairwise_append.mpr ⟨hq.rising, List.pairwise_singleton _ _, ?_⟩, fun w hw => ?_⟩
    · intro w hw x hx
      rw [List.mem_singleton.mp hx, hticket]
      exact hq.given w hw
    · show w.ticket < q.nextTicket + 1
      rcases List.mem_append.mp hw with hw | hw
      · exact Nat.lt_succ_of_lt (hq.given w hw)
      · rw [List.mem_singleton.mp hw, hticket]
        exact Nat.lt_succ_self _
  | granted ticket l => exact hq.filter _ _
  | cancelled ticket => exact hq.filter _ _

theorem Ordered.after (hq : q.Ordered) (h : q.Serves es) : (q.after es).Ordered := by
  induction es generalizing q with
  | nil => exact hq
  | cons e es ih => exact ih (hq.next h.1) h.2

/-! ### Precedence -/

/-- Before a later request that asks for at least as much gets its lock, whoever waits has got one
or has given up. -/
theorem Serves.not_overtaken {past between later : List LockEvent} {ticket : Option Nat} {l : Lock}
    (h : q.Serves (past ++ .queued w :: (between ++ .granted ticket l :: later)))
    (hlater : ∀ k, ticket = some k → ∃ w', .queued w' ∈ between ∧ w'.ticket = k)
    (hcovers : l.Covers w) :
    (∃ l', .granted (some w.ticket) l' ∈ between) ∨ .cancelled w.ticket ∈ between := by
  obtain ⟨-, hw, hrest⟩ := serves_append.mp h
  obtain ⟨hbetween, ⟨-, -, hnone⟩, -⟩ := serves_append.mp hrest
  have hticket : w.ticket = (q.after past).nextTicket := hw
  by_contra hneither
  rw [not_or, not_exists] at hneither
  -- Then the request still waits when the lock is granted.
  have hwaits := mem_waiting_of_mem (q := (q.after past).next (.queued w)) (by simp [next])
    hneither.1 hneither.2
  refine hnone w hwaits (fun k hk => ?_) hcovers
  obtain ⟨w', hw', rfl⟩ := hlater k hk
  have hle : (q.after past).nextTicket + 1 ≤ w'.ticket := hbetween.le_ticket hw'
  omega

/-- Of two tickets the earlier one gets its lock first, if the later one asks for at least as
much. -/
theorem Serves.in_order (h : q.Serves es) (hq : q.Ordered) {k k' : Nat} {l l' : Lock}
    (hl : .granted (some k) l ∈ es) (hl' : .granted (some k') l' ∈ es) (hk : k < k')
    (hcovers : l'.Covers (served (k, l))) : l.id < l'.id := by
  obtain ⟨before, rest, rfl⟩ := List.append_of_mem hl'
  obtain ⟨hbefore, ⟨hid, hasked, hnone⟩, hrest⟩ := serves_append.mp h
  rcases List.mem_append.mp hl with hl | hl
  · rw [hid]
    exact hbefore.id_lt hl
  rcases List.mem_cons.mp hl with heq | hl
  · cases heq
    exact absurd hk (Nat.lt_irrefl k)
  · -- The earlier ticket would have waited when the later one got its lock.
    exfalso
    obtain ⟨between, later, rfl⟩ := List.append_of_mem hl
    obtain ⟨hbetween, ⟨-, hasked', -⟩, -⟩ := serves_append.mp hrest
    have hgiven : k' < (q.after before).nextTicket := (hq.after hbefore).given _ (hasked k' rfl)
    rcases mem_waiting_after (hasked' k rfl) with hwaits | hqueued
    · have hold := (mem_waiting_next hwaits).resolve_right (by rintro ⟨⟩)
      exact hnone _ hold (fun _ hk' => Option.some.inj hk' ▸ hk) hcovers
    · have hle : (q.after before).nextTicket ≤ k := hbetween.le_ticket hqueued
      omega

/-- A lock that is granted to a ticket is as it was asked for. -/
theorem Serves.queued_of_granted (h : q.Serves es) (hq : q.waiting = []) {k : Nat} {l : Lock}
    (hl : .granted (some k) l ∈ es) : .queued (served (k, l)) ∈ es := by
  obtain ⟨before, rest, rfl⟩ := List.append_of_mem hl
  obtain ⟨-, ⟨-, hasked, -⟩, -⟩ := serves_append.mp h
  rcases mem_waiting_after (hasked k rfl) with hwaits | hqueued
  · rw [hq] at hwaits
    cases hwaits
  · exact List.mem_append_left _ hqueued

end Line

/-! ### The line of a table -/

namespace LockTable

variable {t : LockTable}

/-- The line of a table while requests are still to be scanned. -/
def lineBefore (t : LockTable) (rest : List Waiter) : Line :=
  ⟨t.waiting ++ rest, t.nextId, t.nextTicket⟩

/-- The line of a table. -/
def line (t : LockTable) : Line := ⟨t.waiting, t.nextId, t.nextTicket⟩

theorem lineBefore_nil (t : LockTable) : t.lineBefore [] = t.line := by
  rw [lineBefore, List.append_nil, line]

theorem lineBefore_postpone (t : LockTable) (w : Waiter) (rest : List Waiter) :
    (t.postpone w).lineBefore rest = t.lineBefore (w :: rest) := by
  simp [lineBefore, postpone]

/-- Whoever is granted a lock leaves the line. -/
theorem next_lineBefore {w : Waiter} {rest : List Waiter}
    (ho : (t.lineBefore (w :: rest)).Ordered) (l : Lock) :
    (t.lineBefore (w :: rest)).next (.granted (some w.ticket) l)
      = ⟨t.waiting ++ rest, t.nextId + 1, t.nextTicket⟩ := by
  obtain ⟨-, hrest, hbefore⟩ := List.pairwise_append.mp ho.rising
  -- Tickets rise, so nobody else has this one.
  have hwaiting : t.waiting.filter (some ·.ticket != some w.ticket) = t.waiting := by
    refine List.filter_eq_self.mpr fun x hx => bne_iff_ne.mpr fun heq => ?_
    exact Nat.ne_of_lt (hbefore x hx w List.mem_cons_self) (Option.some.inj heq)
  have hothers : rest.filter (some ·.ticket != some w.ticket) = rest := by
    refine List.filter_eq_self.mpr fun x hx => bne_iff_ne.mpr fun heq => ?_
    exact Nat.ne_of_gt ((List.pairwise_cons.mp hrest).1 x hx) (Option.some.inj heq)
  rw [Line.next, lineBefore, List.filter_append, hwaiting, List.filter_cons_of_neg (by simp),
    hothers]

/-- A lock that is in conflict with none covers no request that waits. -/
theorem Prompt.not_covers (h : t.Prompt) {w : Waiter}
    (hc : t.conflicts w.store w.scope w.mode = false) {x : Waiter} (hx : x ∈ t.waiting) :
    ¬(t.nextLock w.store w.scope w.mode).Covers x := by
  intro hcovers
  obtain ⟨b, hb, hblocked⟩ := h.blocked x hx
  have hconflict : t.conflicts w.store w.scope w.mode = true :=
    conflicts_iff_blocked.mpr ⟨b, hb, hblocked.of_covers hcovers w.ticket⟩
  rw [hc] at hconflict
  cases hconflict

/-- A scan grants a request only if nobody who came before is passed over: who has been scanned and
waits is blocked, and who has not been scanned came later. -/
theorem admits_granted (h : t.Prompt) {w : Waiter} {rest : List Waiter}
    (ho : (t.lineBefore (w :: rest)).Ordered) (hc : t.conflicts w.store w.scope w.mode = false) :
    (t.lineBefore (w :: rest)).Admits
      (.granted (some w.ticket) (t.nextLock w.store w.scope w.mode)) := by
  refine ⟨rfl, fun k hk => ?_, fun x hx hticket => ?_⟩
  · cases hk
    exact List.mem_append_right _ List.mem_cons_self
  · have hlt : x.ticket < w.ticket := hticket w.ticket rfl
    have hrest : ∀ y ∈ rest, w.ticket < y.ticket :=
      (List.pairwise_cons.mp (List.pairwise_append.mp ho.rising).2.1).1
    rcases List.mem_append.mp hx with hx | hx
    · exact h.not_covers hc hx
    · rcases List.mem_cons.mp hx with rfl | hx
      · exact absurd hlt (Nat.lt_irrefl _)
      · exact absurd (Nat.lt_trans hlt (hrest x hx)) (Nat.lt_irrefl _)

/-- A scan keeps to the line. -/
theorem serves_scan (vanishing : Nat → Bool) {ws : List Waiter} (h : t.Prompt)
    (ho : (t.lineBefore ws).Ordered) :
    (t.lineBefore ws).Serves (scanEvents vanishing ws t) ∧
      (t.lineBefore ws).after (scanEvents vanishing ws t) = (scan vanishing ws t).1.line := by
  induction ws generalizing t with
  | nil => exact ⟨trivial, t.lineBefore_nil⟩
  | cons w rest ih =>
    rw [scanEvents, scan]
    cases hc : t.conflicts w.store w.scope w.mode with
    | true =>
      rw [← lineBefore_postpone] at ho ⊢
      exact ih (h.postpone hc) ho
    | false =>
      have hadmits := admits_granted h ho hc
      have hnext := next_lineBefore ho (t.nextLock w.store w.scope w.mode)
      have ho' := ho.next hadmits
      rw [hnext] at ho'
      simp only [Bool.false_eq_true, if_false]
      rw [Line.Serves, Line.after, List.foldl_cons, hnext]
      cases hv : vanishing w.ticket with
      | true =>
        obtain ⟨hserves, hafter⟩ := ih (t := t.miss w) (h.miss hc) ho'
        exact ⟨⟨hadmits, hserves⟩, hafter⟩
      | false =>
        obtain ⟨hserves, hafter⟩ := ih (t := t.send w) (h.send hc) ho'
        exact ⟨⟨hadmits, hserves⟩, hafter⟩

theorem serves_release (h : t.Prompt) (ho : t.line.Ordered) (vanishing : Nat → Bool) (id : Nat) :
    t.line.Serves (t.releaseEvents vanishing id) ∧
      t.line.after (t.releaseEvents vanishing id) = (t.releaseWhile vanishing id).1.line := by
  rw [releaseEvents, releaseWhile]
  split
  · exact serves_scan vanishing (h.drained id) ho
  · exact ⟨trivial, rfl⟩

/-- **Every move keeps to the line**, and leaves the line of the table that it leads to. -/
theorem serves_events (h : t.Prompt) (ho : t.line.Ordered) (m : LockMove) :
    t.line.Serves (t.events m) ∧ t.line.after (t.events m) = (t.move m).line := by
  cases m with
  | acquire store scope mode =>
    cases hc : t.conflicts store scope mode with
    | true =>
      rw [events, move, acquire_of_conflict hc]
      exact ⟨⟨rfl, trivial⟩, rfl⟩
    | false =>
      rw [events, move, acquire_of_no_conflict hc]
      have hkept : t.waiting.filter (some ·.ticket != none) = t.waiting :=
        List.filter_eq_self.mpr fun _ _ => rfl
      refine ⟨⟨⟨rfl, by rintro k ⟨⟩, fun w hw _ => ?_⟩, trivial⟩, ?_⟩
      · exact h.not_covers (w := ⟨t.nextTicket, store, scope, mode⟩) hc hw
      · show Line.mk (t.waiting.filter (some ·.ticket != none)) (t.nextId + 1) t.nextTicket = _
        rw [hkept]
        rfl
  | collect ticket => exact ⟨trivial, rfl⟩
  | release vanishing id => exact serves_release h ho vanishing id
  | abandon vanishing ticket =>
    rw [events, move]
    cases hs : t.sent.get? ticket with
    | some l =>
      rw [abandonWhile_of_sent hs]
      exact serves_release (h.collect ticket) ho vanishing l.id
    | none =>
      rw [abandonWhile_of_not_sent hs]
      exact ⟨⟨trivial, trivial⟩, rfl⟩

/-- Moves one after another keep to the line. -/
theorem serves_story (h : t.Prompt) (ho : t.line.Ordered) (ms : List LockMove) :
    t.line.Serves (t.story ms) ∧ t.line.after (t.story ms) = (t.after ms).line := by
  induction ms generalizing t with
  | nil => exact ⟨trivial, rfl⟩
  | cons m ms ih =>
    obtain ⟨hserves, hafter⟩ := serves_events h ho m
    have ho' := ho.after hserves
    rw [hafter] at ho'
    obtain ⟨hrest, hline⟩ := ih (h.move m) ho'
    rw [story, Line.serves_append, Line.after_append, hafter]
    exact ⟨⟨hserves, hrest⟩, hline⟩

/-! ### What the story says is so -/

/-- Each active lock has been granted, and each lock on its way has been granted to its ticket. -/
structure Told (t : LockTable) (es : List LockEvent) : Prop where
  active : ∀ l ∈ t.active, ∃ ticket, .granted ticket l ∈ es
  sent : ∀ e ∈ t.sent, .granted (some e.1) e.2 ∈ es

theorem Told.mono {es es' : List LockEvent} (h : t.Told es) {t' : LockTable}
    (hactive : t'.active ⊆ t.active) (hsent : t'.sent ⊆ t.sent) (hes : es ⊆ es') :
    t'.Told es' where
  active l hl := (h.active l (hactive hl)).imp fun _ hgranted => hes hgranted
  sent e he := hes (h.sent e (hsent he))

/-- One more lock is granted and told of. -/
theorem Told.grant {es : List LockEvent} (h : t.Told es) (ticket : Option Nat) (store : String)
    (scope : Scope) (mode : LockMode) :
    (t.grant store scope mode).2.Told
      (es ++ [.granted ticket (t.nextLock store scope mode)]) where
  active := by
    intro l hl
    rw [grant_eq] at hl
    rcases List.mem_append.mp hl with hl | hl
    · exact (h.active l hl).imp fun _ hgranted => List.mem_append_left _ hgranted
    · rw [List.mem_singleton.mp hl]
      exact ⟨ticket, List.mem_append_right _ (List.mem_singleton_self _)⟩
  sent e he := List.mem_append_left _ (h.sent e he)

theorem Told.scan {es : List LockEvent} (h : t.Told es) (vanishing : Nat → Bool)
    (ws : List Waiter) : (scan vanishing ws t).1.Told (es ++ scanEvents vanishing ws t) := by
  induction ws generalizing t es with
  | nil => exact h.mono (List.Subset.refl _) (List.Subset.refl _) (List.subset_append_left _ _)
  | cons w rest ih =>
    rw [scanEvents, LockTable.scan]
    cases hc : t.conflicts w.store w.scope w.mode with
    | true => exact ih (t := t.postpone w) ⟨h.active, h.sent⟩
    | false =>
      have hgrant := h.grant (some w.ticket) w.store w.scope w.mode
      simp only [Bool.false_eq_true, if_false]
      rw [List.append_cons es]
      cases hv : vanishing w.ticket with
      | true =>
        refine ih (t := t.miss w) (hgrant.mono ?_ (List.Subset.refl _) (List.Subset.refl _))
        exact fun l hl => (mem_remove_active.mp hl).1
      | false =>
        refine ih (t := t.send w) ⟨hgrant.active, fun e he => ?_⟩
        rcases List.mem_append.mp he with he | he
        · exact hgrant.sent e he
        · rw [List.mem_singleton.mp he]
          exact List.mem_append_right _ (List.mem_singleton_self _)

theorem Told.release {es : List LockEvent} (h : t.Told es) (vanishing : Nat → Bool) (id : Nat) :
    (t.releaseWhile vanishing id).1.Told (es ++ t.releaseEvents vanishing id) := by
  rw [releaseEvents, releaseWhile]
  split
  · refine Told.scan (t := { t.remove id with waiting := [] }) ⟨fun l hl => ?_, h.sent⟩ _ _
    exact h.active l (mem_remove_active.mp hl).1
  · rw [List.append_nil]
    exact h

theorem Told.move {es : List LockEvent} (h : t.Told es) (m : LockMove) :
    (t.move m).Told (es ++ t.events m) := by
  have hsame : ∀ es', t.Told (es ++ es') := fun es' =>
    h.mono (List.Subset.refl _) (List.Subset.refl _) (List.subset_append_left _ _)
  cases m with
  | acquire store scope mode =>
    cases hc : t.conflicts store scope mode with
    | true =>
      rw [events, LockTable.move, acquire_of_conflict hc]
      exact ⟨(hsame _).active, (hsame _).sent⟩
    | false =>
      rw [events, LockTable.move, acquire_of_no_conflict hc]
      exact h.grant none store scope mode
  | collect ticket =>
    exact ⟨(hsame _).active, fun e he => (hsame _).sent e (Keyed.mem_of_mem_erase he)⟩
  | release vanishing id => exact h.release vanishing id
  | abandon vanishing ticket =>
    rw [events, LockTable.move]
    cases hs : t.sent.get? ticket with
    | some l =>
      rw [abandonWhile_of_sent hs]
      refine Told.release (t := (t.collect ticket).2) ⟨h.active, fun e he => ?_⟩ vanishing l.id
      exact h.sent e (Keyed.mem_of_mem_erase he)
    | none =>
      rw [abandonWhile_of_not_sent hs]
      exact ⟨(hsame _).active, (hsame _).sent⟩

theorem Told.story {es : List LockEvent} (h : t.Told es) (ms : List LockMove) :
    (t.after ms).Told (es ++ t.story ms) := by
  induction ms generalizing t es with
  | nil => exact (List.append_nil es).symm ▸ h
  | cons m ms ih =>
    rw [LockTable.story, ← List.append_assoc]
    exact ih (h.move m)

/-! ### No overtaking -/

/-- **No request is overtaken.**  After any moves from the empty table, whatever is asked for,
released under whatever number, collected and given up, and whichever waiters vanish:

* the story tells who waits, the tickets and the numbers of locks in the order in which they were
  given, and of each lock that is active or on its way; a lock that is granted to a ticket is as it
  was asked for;
* when a request waits, and a later one of its store, whose scope is that of the first or contains
  it, and which is exclusive or as shared as the first, is granted a lock, in a scan or at once,
  then the first has been granted one before, or has been given up;
* tickets that ask for the same get their locks in the order in which they came. -/
theorem no_overtaking (ms : List LockMove) :
    let t := after {} ms
    let es := story {} ms
    ((Line.after {} es).waiting = t.waiting ∧
      (es.filterMap LockEvent.request?).map (·.ticket) = List.range t.nextTicket ∧
      (es.filterMap LockEvent.lock?).map (·.id) = List.range t.nextId ∧
      t.Told es ∧
      ∀ k l, .granted (some k) l ∈ es → .queued ⟨k, l.store, l.scope, l.mode⟩ ∈ es) ∧
    (∀ past w between ticket l later,
      es = past ++ .queued w :: (between ++ .granted ticket l :: later) →
      (∀ k, ticket = some k → ∃ w', .queued w' ∈ between ∧ w'.ticket = k) →
      l.store = w.store → l.scope.segments <+: w.scope.segments →
      (l.mode = .exclusive ∨ w.mode = .shared) →
      (∃ l', .granted (some w.ticket) l' ∈ between) ∨ .cancelled w.ticket ∈ between) ∧
    ∀ k k' l l', .granted (some k) l ∈ es → .granted (some k') l' ∈ es → k < k' →
      l.store = l'.store → l.scope = l'.scope → l.mode = l'.mode → l.id < l'.id := by
  intro t es
  have hordered : (line {}).Ordered := ⟨List.Pairwise.nil, by rintro w ⟨⟩⟩
  obtain ⟨hserves, hafter⟩ := serves_story Prompt.empty hordered ms
  have hafter' : Line.after {} es = t.line := hafter
  have htold : LockTable.Told {} [] := ⟨by rintro l ⟨⟩, by rintro e ⟨⟩⟩
  refine ⟨⟨?_, ?_, ?_, ?_, ?_⟩, ?_, ?_⟩
  · rw [hafter']
    rfl
  · exact hserves.tickets.trans (congrArg (fun q => List.range q.nextTicket) hafter)
  · exact hserves.ids.trans (congrArg (fun q => List.range q.nextId) hafter)
  · exact htold.story ms
  · exact fun k l hl => hserves.queued_of_granted rfl hl
  · intro past w between ticket l later heq hlater hstore hscope hmode
    have hstory : (line {}).Serves (past ++ .queued w :: (between ++ .granted ticket l :: later)) :=
      heq ▸ hserves
    exact hstory.not_overtaken hlater ⟨hstore, hscope, hmode⟩
  · intro k k' l l' hl hl' hk hstore hscope hmode
    refine hserves.in_order hordered hl hl' hk ⟨hstore.symm, ?_, ?_⟩
    · rw [← hscope]
      exact List.prefix_refl _
    · -- A mode is exclusive or shared.
      show l'.mode = .exclusive ∨ l.mode = .shared
      rw [← hmode]
      cases l.mode with
      | shared => exact Or.inr rfl
      | exclusive => exact Or.inl rfl

/-- A shared lock on a scope, and an exclusive request for it that has to wait.  A shared lock on
the scope above passes by, as it asks for less; two more exclusive requests have to wait, for the
scope above and for the scope again.  Then the locks are released one after another. -/
def throng : List LockMove :=
  [.acquire "s" ⟨["a", "b"]⟩ .shared, .acquire "s" ⟨["a", "b"]⟩ .exclusive,
    .acquire "s" ⟨["a"]⟩ .shared, .acquire "s" ⟨["a"]⟩ .exclusive,
    .acquire "s" ⟨["a", "b"]⟩ .exclusive, .release (fun _ => false) 0,
    .release (fun _ => false) 1, .release (fun _ => false) 2, .release (fun _ => false) 3]

/-- In the throng the request for the scope above has to wait until the first one has its lock, and
of the two requests for the same scope the first one gets its lock first. -/
theorem throng_in_order :
    let between : List LockEvent := [.granted none ⟨1, "s", ⟨["a"]⟩, .shared⟩,
      .queued ⟨1, "s", ⟨["a"]⟩, .exclusive⟩, .queued ⟨2, "s", ⟨["a", "b"]⟩, .exclusive⟩,
      .granted (some 0) ⟨2, "s", ⟨["a", "b"]⟩, .exclusive⟩]
    story {} throng = [.granted none ⟨0, "s", ⟨["a", "b"]⟩, .shared⟩] ++
        .queued ⟨0, "s", ⟨["a", "b"]⟩, .exclusive⟩ ::
          (between ++ .granted (some 1) ⟨3, "s", ⟨["a"]⟩, .exclusive⟩ ::
            [.granted (some 2) ⟨4, "s", ⟨["a", "b"]⟩, .exclusive⟩]) ∧
      ((∃ l', .granted (some 0) l' ∈ between) ∨ .cancelled 0 ∈ between) ∧ 2 < 4 := by
  intro between
  have hstory : story {} throng = [.granted none ⟨0, "s", ⟨["a", "b"]⟩, .shared⟩] ++
      .queued ⟨0, "s", ⟨["a", "b"]⟩, .exclusive⟩ ::
        (between ++ .granted (some 1) ⟨3, "s", ⟨["a"]⟩, .exclusive⟩ ::
          [.granted (some 2) ⟨4, "s", ⟨["a", "b"]⟩, .exclusive⟩]) := by decide
  obtain ⟨-, hfirst, horder⟩ := no_overtaking throng
  refine ⟨hstory, ?_, ?_⟩
  · refine hfirst _ _ _ _ _ _ hstory ?_ rfl (by decide) (Or.inl rfl)
    intro k hk
    exact ⟨⟨1, "s", ⟨["a"]⟩, .exclusive⟩, by decide, Option.some.inj hk⟩
  · exact horder 0 2 ⟨2, "s", ⟨["a", "b"]⟩, .exclusive⟩ ⟨4, "s", ⟨["a", "b"]⟩, .exclusive⟩
      (by rw [hstory]; decide) (by rw [hstory]; decide) (by decide) rfl rfl rfl

end LockTable

end RemoteSettings
