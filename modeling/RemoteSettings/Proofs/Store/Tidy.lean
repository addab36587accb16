import RemoteSettings.Proofs.State.Kept
import RemoteSettings.Proofs.State.Rebuild
import RemoteSettings.Proofs.Store.Evolution

/-!
# The state of a run

The state of every run is well kept, and no branch of it was built later than now.  So the store,
which takes a new state over only if a branch was rebuilt, always has the state that the action
leads to.

## Main definitions

* `Store.Tidy` — the state is well kept, and was built by now.

## Main results

* `tidy_after` — the store is tidy after any run.
* `Tidy.dispatch_state` — **the store takes over what an action leads to.**
-/

namespace RemoteSettings

namespace Store

/-! ### The state of a store -/

/-- The state is well kept, and was built by now. -/
structure Tidy (s : Store) : Prop where
  kept : s.state.Kept
  builtBy : s.state.BuiltBy s.clock

variable {s : Store}

/-- **The store takes over what an action leads to.** -/
theorem Tidy.dispatch_state (h : s.Tidy) (a : Action) :
    (s.dispatch a).state = s.state.reduce (s.clock + 1) a := by
  rw [dispatch]
  split
  · -- No branch was rebuilt, so the state is kept; it is the one that the action leads to.
    next hsame =>
    exact ((State.rebuiltAt_reduce _ _ a).eq_of_sameAs h.builtBy hsame).symm
  · rfl

@[simp] theorem dispatch_clock (s : Store) (a : Action) : (s.dispatch a).clock = s.clock + 1 := by
  rw [dispatch_eq]

theorem Tidy.dispatch (h : s.Tidy) (a : Action) : (s.dispatch a).Tidy where
  kept := by
    rw [h.dispatch_state]
    exact h.kept.reduce _ a
  builtBy := by
    rw [h.dispatch_state, dispatch_clock]
    exact (State.rebuiltAt_reduce _ _ a).builtBy h.builtBy (Nat.le_succ _)

/-- Locks, tasks and requests do not count. -/
theorem Tidy.congr {u : Store} (h : s.Tidy) (hstate : u.state = s.state)
    (hclock : u.clock = s.clock) : u.Tidy where
  kept := by
    rw [hstate]
    exact h.kept
  builtBy := by
    rw [hstate, hclock]
    exact h.builtBy

/-- The state of every run is well kept, and was built by now. -/
theorem tidy_after (name : String) (endpoints : Endpoints) (ms : List StoreMove) :
    ((Store.fresh name endpoints).after ms).Tidy := by
  have h := (Evolves.after (Store.fresh name endpoints) ms).induction
    (P := fun state clock _ => state.Kept ∧ state.BuiltBy clock)
    (fun _ ht a => ⟨(Tidy.dispatch ⟨ht.1, ht.2⟩ a).kept, (Tidy.dispatch ⟨ht.1, ht.2⟩ a).builtBy⟩)
    (fun _ _ _ _ hle ht => ⟨ht.1, ht.2.mono hle⟩)
    ⟨State.Kept.empty, State.BuiltBy.empty 0⟩
  exact ⟨h.1, h.2⟩

end Store

end RemoteSettings
