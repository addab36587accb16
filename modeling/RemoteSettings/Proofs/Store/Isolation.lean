import RemoteSettings.Proofs.State.Kept
import RemoteSettings.Proofs.Store.Deeds

/-!
# Saves are isolated

While a save is under way, from the moment at which it sends its request until it has committed the
reply or been dropped, no operation that overlaps it sends a request, commits a reply or waits for
one.  The reason is that a task sends only with the lock of its operation in hand, and has it in
hand until it has committed; so two operations that are under way have compatible locks.

## Main definitions

* `Board.Chronicle` — the invariant that ties deeds to what tasks are at.
* `Remote.Reports` — a reply is about the setting that was asked for.

## Main results

* `Chronicle.step` — every step keeps the invariant.
* `Remote.spares_commit` — a reply brings only settings that its operation is about.
* `Store.setting?_dispatchAll` — settings that actions do not bring stay the same.
* `saves_are_isolated` — **while a save is under way nothing else touches its settings.**
-/

namespace RemoteSettings

/-- The task has sent its request. -/
def Stage.Begun : Stage → Prop
  | .awaiting _ _ => True
  | .closing _ => True
  | .over => True
  | _ => False

/-- The operation whose reply a task waits for. -/
def Stage.awaited? : Stage → Option Remote
  | awaiting op _ => some op
  | _ => none

namespace Board

variable {b : Board} {n : Nat}

/-- The operation whose reply a task waits for, by number. -/
def awaited? (b : Board) (n : Nat) : Option Remote := b.stages[n]?.bind Stage.awaited?

/-- The invariant: deeds are in order and show every request, what is under way is what tasks wait
for, and whoever has done a deed has sent its request. -/
structure Chronicle (b : Board) : Prop where
  orderly : Orderly b.deeds
  requests : b.requests = b.deeds.filterMap (Deed.request? b.endpoints)
  underWay : ∀ n op, UnderWay b.deeds n op ↔ b.awaited? n = some op
  begun : ∀ d ∈ b.deeds, ∃ st, b.stages[d.task]? = some st ∧ st.Begun

theorem Chronicle.fresh (name : String) (endpoints : Endpoints) :
    (Store.fresh name endpoints).board.Chronicle where
  orderly := Orderly.nil
  requests := rfl
  underWay := by
    intro n op
    refine ⟨fun h => absurd h.1 List.not_mem_nil, fun h => ?_⟩
    simp [awaited?, Store.board, Store.fresh] at h
  begun := by intro d hd; exact absurd hd List.not_mem_nil

/-- A task that has not begun has done no deed. -/
theorem Chronicle.task_ne (h : b.Chronicle) {st : Stage} (hn : b.stages[n]? = some st)
    (hst : ¬st.Begun) : ∀ d ∈ b.deeds, d.task ≠ n := by
  rintro d hd rfl
  obtain ⟨st', hst', hbegun⟩ := h.begun d hd
  rw [hn] at hst'
  exact hst (Option.some.inj hst' ▸ hbegun)

/-- What tasks are at after one of them has come further. -/
theorem stages_put (hn : n < b.stages.length) (st : Stage) (m : Nat) :
    (b.put n st).stages[m]? = if n = m then some st else b.stages[m]? := by
  simp [put, List.getElem?_set, hn]

theorem Chronicle.underWay_of_awaiting (h : b.Chronicle) {op : Remote} {lock : Option Lock}
    (hn : b.stages[n]? = some (.awaiting op lock)) : UnderWay b.deeds n op :=
  (h.underWay n op).mpr (by rw [awaited?, hn]; rfl)

theorem awaited?_put (hn : n < b.stages.length) (st : Stage) (m : Nat) :
    (b.put n st).awaited? m = if n = m then st.awaited? else b.awaited? m := by
  rw [awaited?, stages_put hn]
  split <;> rfl

/-- Deeds have nothing to do with the table of locks. -/
theorem Chronicle.withLocks (h : b.Chronicle) (t : LockTable) :
    ({ b with locks := t } : Board).Chronicle := ⟨h.orderly, h.requests, h.underWay, h.begun⟩

/-- A task comes further without a deed, and waits for a reply neither before nor after. -/
theorem Chronicle.put (h : b.Chronicle) {st st' : Stage} (hn : b.stages[n]? = some st)
    (hst : st.awaited? = none) (hst' : st'.awaited? = none) (hbegun : st.Begun → st'.Begun) :
    (b.put n st').Chronicle where
  orderly := h.orderly
  requests := h.requests
  underWay := by
    intro m op
    have hm := h.underWay m op
    rw [awaited?_put (lt_of_stage hn)]
    split
    · next heq =>
      rwa [← heq, awaited?, hn, Option.bind_some, hst, ← hst', heq] at hm
    · exact hm
  begun := by
    intro d hd
    obtain ⟨st₀, hst₀, hbegun₀⟩ := h.begun d hd
    rw [stages_put (lt_of_stage hn)]
    split
    · next heq =>
      rw [← heq, hn] at hst₀
      exact ⟨st', rfl, hbegun (Option.some.inj hst₀ ▸ hbegun₀)⟩
    · exact ⟨st₀, hst₀, hbegun₀⟩

/-- A task comes further with a deed, and perhaps a request. -/
theorem Chronicle.did (h : b.Chronicle) {b' : Board} {st st' : Stage} {d : Deed}
    (hn : b.stages[n]? = some st) (hd : d.task = n) (hmay : d.MayFollow b.deeds)
    (hbegun : st'.Begun) (hafter : ∀ op, UnderWay (b.deeds ++ [d]) n op ↔ st'.awaited? = some op)
    (hstages : b'.stages = b.stages) (hdeeds : b'.deeds = b.deeds ++ [d])
    (hrequests : b'.requests = b'.deeds.filterMap (Deed.request? b'.endpoints)) :
    (b'.put n st').Chronicle where
  orderly := by
    have horderly : Orderly b'.deeds := hdeeds ▸ h.orderly.snoc hmay
    exact horderly
  requests := hrequests
  underWay := by
    intro m op
    have hlt : n < b'.stages.length := hstages ▸ lt_of_stage hn
    show UnderWay b'.deeds m op ↔ _
    rw [awaited?_put hlt, hdeeds]
    split
    · next heq => exact heq ▸ hafter op
    · next hne =>
      rw [awaited?, hstages]
      exact (underWay_snoc_of_ne (hd ▸ hne)).trans (h.underWay m op)
  begun := by
    intro e he
    have hlt : n < b'.stages.length := hstages ▸ lt_of_stage hn
    replace he : e ∈ b.deeds ++ [d] := hdeeds ▸ he
    rw [stages_put hlt, hstages]
    split
    · exact ⟨st', rfl, hbegun⟩
    · next hne =>
      rcases List.mem_append.mp he with he | he
      · exact h.begun e he
      · rw [List.mem_singleton.mp he, hd] at hne
        exact absurd rfl hne

/-! ### Steps -/

/-- Nothing that is under way clashes with an operation whose lock is in hand. -/
theorem Custody.not_clash (hc : b.Custody) (h : b.Chronicle) {op : Remote} {lock : Option Lock}
    (hn : b.stages[n]? = some (.holding op lock)) {m : Nat} {op' : Remote}
    (hm : UnderWay b.deeds m op') : ¬op'.Clash op := by
  obtain ⟨st, hst, hawaited⟩ := Option.bind_eq_some_iff.mp ((h.underWay m op').mp hm)
  cases st with
  | awaiting op₀ lock' =>
    obtain rfl := Option.some.inj hawaited
    -- One of them waits for its reply and the other has not sent its request.
    have hne : m ≠ n := by
      rintro rfl
      cases hst.symm.trans hn
    have hneeds : op₀.Needs b.name lock' := hc.fits_of_stage hst
    have hneeds' : op.Needs b.name lock := hc.fits_of_stage hn
    exact hneeds.not_clash hneeds' fun l l' hl hl' => hc.compatible hne hst hn hl hl'
  | _ => cases hawaited

/-- **Every step keeps the deeds in order.** -/
theorem Chronicle.step (b b' : Board) (hstep : b.Step b') (hc : b.Custody) (h : b.Chronicle) :
    b'.Chronicle := by
  cases hstep with
  | spawn =>
    -- The new task is behind all others, and it waits for nothing.
    refine ⟨h.orderly, h.requests, fun n op => (h.underWay n op).trans ?_, fun d hd => ?_⟩
    · rw [awaited?, awaited?, List.getElem?_append]
      split
      · rfl
      · next hn =>
        rw [List.getElem?_eq_none (Nat.not_lt.mp hn)]
        cases hnew : [Stage.idle][n - b.stages.length]? with
        | none => rfl
        | some st =>
          have hidle : st = .idle := List.mem_singleton.mp (List.mem_of_getElem? hnew)
          simp [hidle, Stage.awaited?]
    · obtain ⟨st, hst, hbegun⟩ := h.begun d hd
      exact ⟨st, (List.getElem?_append_left (lt_of_stage hst)).trans hst, hbegun⟩
  | skip idle _ => exact h.put idle rfl rfl id
  | grant idle _ _ => exact (h.withLocks _).put idle rfl rfl id
  | queue idle _ _ => exact (h.withLocks _).put idle rfl rfl id
  | collect queued _ => exact (h.withLocks _).put queued rfl rfl id
  | abandon queued => exact (h.withLocks _).put queued rfl rfl False.elim
  | @send n op lock holding =>
    have hfirst := h.task_ne holding id
    have hmay : Deed.MayFollow b.deeds (.sent n op) :=
      ⟨hfirst, fun m op' hm => hc.not_clash h holding hm⟩
    -- The task had done nothing, so that from now on its operation is just this one.
    refine h.did holding rfl hmay trivial ?_ rfl rfl ?_
    · intro op'
      rw [underWay_sent hfirst, Stage.awaited?, Option.some_inj, eq_comm]
    · simp [Board.sendOff, Board.did, h.requests, Deed.request?]
  | @commit n op lock reply awaiting =>
    have hmay : Deed.MayFollow b.deeds (.committed n op reply) := h.underWay_of_awaiting awaiting
    refine h.did awaiting rfl hmay trivial ?_ rfl rfl ?_
    · exact fun op' => iff_of_false not_underWay_committed (by simp [Stage.awaited?])
    · simp [Board.did, h.requests, Deed.request?]
  | @drop n op lock awaiting =>
    have hmay : Deed.MayFollow b.deeds (.dropped n op) := h.underWay_of_awaiting awaiting
    refine h.did awaiting rfl hmay trivial ?_ rfl rfl ?_
    · exact fun op' => iff_of_false not_underWay_dropped (by simp [Stage.awaited?])
    · simp [Board.did, h.requests, Deed.request?]
  | @release n lock closing =>
    cases lock with
    | none => exact h.put closing rfl rfl id
    | some lock => exact (h.withLocks _).put closing rfl rfl id
  | finish stage settled =>
    rcases settled with rfl | rfl
    · exact h.put stage rfl rfl fun _ => trivial
    · exact h.put stage rfl rfl fun _ => trivial

/-- Custody and chronicle hold of the board of every run. -/
theorem custody_and_chronicle (name : String) (endpoints : Endpoints) (ms : List StoreMove) :
    ((Store.fresh name endpoints).after ms).board.Custody ∧
      ((Store.fresh name endpoints).after ms).board.Chronicle :=
  Steps.induction (P := fun b => b.Custody ∧ b.Chronicle)
    (fun b b' hstep h => ⟨h.1.step b b' hstep, h.2.step b b' hstep h.1⟩)
    (Store.after_steps _ ms) ⟨Custody.fresh name endpoints, Chronicle.fresh name endpoints⟩

end Board

/-! ### What a reply changes -/

/-- A reply is about the setting that was asked for. -/
def Remote.Reports (reply : Reply) : Remote → Prop
  | fetchSetting _ id => ∀ x, decodeReply Setting.decode reply = .ok x → x.id = id
  | saveSetting _ id _ => ∀ x, decodeReply Setting.decode reply = .ok x → x.id = id
  | _ => True

theorem Store.setting?_dispatchAll {as : List Action} {group id : String}
    (h : ∀ a ∈ as, a.Spares group id) (s : Store) :
    (s.dispatchAll as).state.setting? group id = s.state.setting? group id := by
  induction as generalizing s with
  | nil => rfl
  | cons a as ih =>
    have hfirst : (s.dispatch a).state.setting? group id = s.state.setting? group id := by
      rw [dispatch]
      split
      · rfl
      · exact State.setting?_reduce (h a List.mem_cons_self) _ s.state
    exact (ih (fun b hb => h b (List.mem_cons_of_mem a hb)) (s.dispatch a)).trans hfirst

/-- The one setting that was asked for is not another one. -/
theorem Action.spares_one {g i group id : String} {x : Setting} (hx : x.id = i)
    (hcovers : ¬∃ j, some (g, some i) = some (group, j) ∧ (j = none ∨ j = some id)) :
    (receiveSettings g [x]).Spares group id := by
  rintro rfl y hy rfl
  obtain rfl := List.mem_singleton.mp hy
  exact hcovers ⟨some i, rfl, Or.inr (by rw [hx])⟩

/-- A reply that is about what was asked for brings only settings that its operation is about. -/
theorem Remote.spares_commit {op : Remote} {reply : Reply} (hreports : op.Reports reply)
    {group id : String} (hcovers : ¬op.Covers group id) :
    ∀ a ∈ (op.commit reply).1, a.Spares group id := by
  cases op with
  | fetchGroups =>
    rw [commit]
    split <;> simp [Action.Spares]
  | fetchSettings g =>
    have hg : g ≠ group := fun heq => hcovers ⟨none, by rw [target?, heq], Or.inl rfl⟩
    rw [commit]
    split <;> simp [Action.Spares, hg]
  | fetchSetting g i =>
    rw [commit]
    split
    · next x hx =>
      simpa using Action.spares_one (hreports x hx) hcovers
    · simp [Action.Spares]
  | saveSetting g i value =>
    rw [commit]
    split
    · next x hx =>
      simpa using Action.spares_one (hreports x hx) hcovers
    · simp [Action.Spares]
  | saveBatch g updates =>
    have hg : g ≠ group := fun heq => hcovers ⟨none, by rw [target?, heq], Or.inl rfl⟩
    rw [commit]
    split
    · next r hr =>
      intro a ha
      rcases List.mem_append.mp ha with ha | ha
      · obtain ⟨x, -, rfl⟩ := List.mem_map.mp ha
        trivial
      · split at ha
        · exact absurd ha List.not_mem_nil
        · rw [List.mem_singleton.mp ha]
          exact fun heq => absurd heq hg
    · split <;> simp [Action.Spares]

/-! ### Isolation -/

/-- What a task waits for, as its phase says. -/
theorem Store.awaited?_board {s : Store} {n : Nat} {op : Remote} :
    s.board.awaited? n = some op ↔
      ∃ t number lock goal, s.tasks[n]? = some t ∧ t.phase = .requesting number op lock goal := by
  rw [Board.awaited?, board, List.getElem?_map]
  cases ht : s.tasks[n]? with
  | none => simp
  | some t =>
    cases hphase : t.phase <;> simp [hphase, Phase.stage, Stage.awaited?]

/-- **Saves are isolated.**  After any run from a store that has done nothing, whatever tasks are
begun and cancelled, in whatever order they take their turns, and whatever is answered:

* the requests that were sent are those of the deeds, in their order, and an operation is under way
  exactly while its task waits for the reply;
* while a save is under way, an operation of another task that overlaps it is not under way, and it
  neither sends its request nor commits a reply next;
* an operation that was sent before a save was committed and is committed after it, with a reply
  about what it asked for, leaves every setting that the save is about as it is. -/
theorem saves_are_isolated (name : String) (endpoints : Endpoints) (ms : List StoreMove) :
    let s := (Store.fresh name endpoints).after ms
    (s.requests = s.deeds.filterMap (Deed.request? s.endpoints) ∧
      ∀ n op, UnderWay s.deeds n op ↔
        ∃ t number lock goal, s.tasks[n]? = some t ∧ t.phase = .requesting number op lock goal) ∧
    (∀ pre, pre <+: s.deeds → ∀ n op, UnderWay pre n op → op.isSave = true →
      ∀ m op', m ≠ n → op'.Overlaps op →
        ¬UnderWay pre m op' ∧
          ∀ d, pre ++ [d] <+: s.deeds → d ≠ .sent m op' ∧ ∀ reply, d ≠ .committed m op' reply) ∧
    (∀ pre mid n op reply m op' reply',
      pre ++ .committed n op reply :: mid ++ [.committed m op' reply'] <+: s.deeds →
      op.isSave = true → m ≠ n → .sent m op' ∈ pre → op'.Reports reply' →
      ∀ group id, op.Covers group id → ∀ now : Store,
        (now.dispatchAll (op'.commit reply').1).state.setting? group id
          = now.state.setting? group id) := by
  intro s
  have h : s.board.Chronicle := (Board.custody_and_chronicle name endpoints ms).2
  have horderly : Orderly s.deeds := h.orderly
  refine ⟨⟨h.requests, fun n op => (h.underWay n op).trans Store.awaited?_board⟩, ?_, ?_⟩
  · intro pre hpre n op hn hsave m op' hne hoverlaps
    have hclash : op'.Clash op := ⟨hoverlaps, Or.inr hsave⟩
    have hnot : ¬UnderWay pre m op' :=
      fun hm => (horderly.of_prefix hpre).no_clash hn hm hne hclash
    refine ⟨hnot, fun d hd => ⟨?_, fun reply => ?_⟩⟩
    · rintro rfl
      exact (horderly pre _ hd).2 n op hn hclash.symm
    · rintro rfl
      exact hnot (horderly pre _ hd)
  · intro pre mid n op reply m op' reply' hpre hsave hne hsent hreports group id hcovers now
    refine Store.setting?_dispatchAll (Remote.spares_commit hreports ?_) now
    -- Both were under way just before the save was committed, so they do not overlap.
    have hn : UnderWay pre n op := by
      refine horderly pre (.committed n op reply) (List.IsPrefix.trans ?_ hpre)
      simp
    have hlast : UnderWay (pre ++ .committed n op reply :: mid) m op' :=
      horderly _ (.committed m op' reply') hpre
    have hm : UnderWay pre m op' :=
      ⟨hsent, fun op₀ reply₀ hmem => hlast.2.1 op₀ reply₀ (List.mem_append_left _ hmem),
        fun op₀ hmem => hlast.2.2 op₀ (List.mem_append_left _ hmem)⟩
    -- If they overlapped, they would clash, as one of them is a save.
    have hbefore : pre <+: s.deeds :=
      (List.prefix_append _ _).trans ((List.prefix_append _ _).trans hpre)
    have hclear : ¬op'.Overlaps op := fun hoverlaps =>
      (horderly.of_prefix hbefore).no_clash hn hm hne ⟨hoverlaps, Or.inr hsave⟩
    rintro ⟨i, hi, hid⟩
    obtain ⟨j, hj, hjd⟩ := hcovers
    refine hclear ⟨group, i, j, hi, hj, ?_⟩
    rcases hid with rfl | rfl
    · exact Or.inl rfl
    · rcases hjd with rfl | rfl
      · exact Or.inr (Or.inl rfl)
      · exact Or.inr (Or.inr rfl)

/-- A save and a fetch of another setting are under way together, a fetch of the same setting waits
for its lock, and the save is committed first. -/
def race : List StoreMove :=
  [.spawn (.saveSetting "g" "a" (.bool true)) false, .turn .later 0,
    .spawn (.resolveSetting "g" "b" false) false, .turn .later 1,
    .spawn (.resolveSetting "g" "a" false) false, .turn .later 2,
    .respond 0 (.error (.transport "refused")), .turn .later 0,
    .respond 1 (.ok (.object [("id", .string "b")])), .turn .later 1]

/-- The save, the fetch, and what is answered to them. -/
def raceDeeds : List Deed :=
  [.sent 0 (.saveSetting "g" "a" (.bool true)), .sent 1 (.fetchSetting "g" "b"),
    .committed 0 (.saveSetting "g" "a" (.bool true)) (.error (.transport "refused")),
    .committed 1 (.fetchSetting "g" "b") (.ok (.object [("id", .string "b")]))]

/-- In the race, the save is under way, no fetch of its setting is under way with it or is sent
next, and the fetch that was sent before it was committed leaves its setting as it is. -/
theorem race_is_isolated :
    let s := (Store.fresh "s" ⟨"", "/groups"⟩).after race
    s.deeds = raceDeeds ∧
      UnderWay (raceDeeds.take 2) 0 (.saveSetting "g" "a" (.bool true)) ∧
      ¬UnderWay (raceDeeds.take 2) 2 (.fetchSetting "g" "a") ∧
      ∀ now : Store,
        (now.dispatchAll
            ((Remote.fetchSetting "g" "b").commit
              (.ok (.object [("id", .string "b")]))).1).state.setting? "g" "a"
          = now.state.setting? "g" "a" := by
  have hdeeds : ((Store.fresh "s" ⟨"", "/groups"⟩).after race).deeds = raceDeeds := rfl
  have hunder : UnderWay (raceDeeds.take 2) 0 (.saveSetting "g" "a" (.bool true)) := by
    simp [UnderWay, raceDeeds]
  have hoverlaps : (Remote.fetchSetting "g" "a").Overlaps (.saveSetting "g" "a" (.bool true)) :=
    ⟨"g", some "a", some "a", rfl, rfl, Or.inr (Or.inr rfl)⟩
  have hreports : (Remote.fetchSetting "g" "b").Reports (.ok (.object [("id", .string "b")])) := by
    intro x hx
    have hdecode : Remote.decodeReply Setting.decode (.ok (.object [("id", .string "b")]))
        = .ok { id := "b" } := rfl
    rw [hdecode] at hx
    rw [← Except.ok.inj hx]
  have hisolated := saves_are_isolated "s" ⟨"", "/groups"⟩ race
  dsimp only at hisolated
  rw [hdeeds] at hisolated
  obtain ⟨-, hsave, hkept⟩ := hisolated
  refine ⟨hdeeds, hunder, ?_, ?_⟩
  · exact (hsave _ (List.take_prefix 2 raceDeeds) 0 _ hunder rfl 2 _ (by decide) hoverlaps).1
  · exact hkept (raceDeeds.take 2) [] 0 _ _ 1 (.fetchSetting "g" "b") _ List.prefix_rfl rfl
      (by decide) (by simp [raceDeeds]) hreports "g" "a" ⟨some "a", rfl, Or.inr rfl⟩

end RemoteSettings
