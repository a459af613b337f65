import Implementors.Proofs.Registrar.Runs
import Implementors.Proofs.Store.Growth
import Mathlib

/-!
# What a registrar does to its store

All that a registrar does to its store is to register entries. So of any two moments of a run the later
one shows what the earlier one did, with more at the ends.
-/
namespace Implementors.Registrar

variable {ν : Type} [Viewer ν]

/-- All that a call does to the store is to register entries. -/
theorem store_perform (r : Registrar ν) (c : Call ν) :
    ∃ entries, (r.perform c).store = r.store.registeredOnto entries := by
  obtain ⟨phase, store⟩ := r
  cases phase with
  | queueing queue =>
    cases c with
    | register m => exact ⟨[], rfl⟩
    | attach viewer => exact ⟨_, store.mergeAll_fst_eq queue⟩
  | forwarding viewer =>
    cases c with
    | register m => exact ⟨_, store.mergeEntries_fst m.entries⟩
    | attach late => exact ⟨[], rfl⟩

theorem store_run (r : Registrar ν) (calls : List (Call ν)) :
    ∃ entries, (r.run calls).store = r.store.registeredOnto entries := by
  induction calls generalizing r with
  | nil => exact ⟨[], rfl⟩
  | cons c calls ih =>
    obtain ⟨first, hfirst⟩ := store_perform r c
    obtain ⟨rest, hrest⟩ := ih (r.perform c)
    exact ⟨first ++ rest, by rw [Store.registeredOnto_append, ← hfirst]; exact hrest⟩

/-- Between two moments of a run the store only grows at its ends: its crates stand in the same order
at the later one, each with the implementors that it had, and whatever is new stands behind them. If
identical implementors are skipped, no crate ever lists one twice. -/
theorem run_grows_at_ends (policy : Policy) (calls : List (Call ν)) {i j : Nat} (h : i ≤ j) :
    let snapshot (n : Nat) := ((waiting ν policy).run (calls.take n)).store
    (snapshot i).GrowsTo (snapshot j) ∧
      (policy = .skipIdentical → ∀ n, (snapshot n).Irredundant) := by
  intro snapshot
  constructor
  · obtain ⟨d, rfl⟩ := Nat.exists_eq_add_of_le h
    obtain ⟨entries, he⟩ :=
      store_run ((waiting ν policy).run (calls.take i)) ((calls.drop i).take d)
    have hj : snapshot (i + d) = (snapshot i).registeredOnto entries := by
      rw [← he, ← run_append, ← List.take_add]
    rw [hj]
    exact Store.growsTo_registeredOnto _ entries
  · intro hp n
    obtain ⟨entries, he⟩ := store_run (waiting ν policy) (calls.take n)
    have hn : snapshot n = (Store.empty policy).registeredOnto entries := he
    have hempty : (Store.empty policy).Irredundant := fun crate listed hget => by cases hget
    rw [hn]
    exact hempty.registeredOnto hp entries

/-- The queue is merged at once, with an implementor that it lists twice; what is registered later
comes behind, also for a crate that was there with nothing. -/
theorem run_grows_at_ends_late_crate :
    let x : Implementor := .plain (.ofNames "X".toList "T".toList)
    let linked : Implementor := ⟨x.header, some "<a>X</a>".toList⟩
    let calls : List (Call Recorder) := [
      .register (.ofEntries [("b".toList, []), ("a".toList, [x])]),
      .register (.ofEntries [("a".toList, [x, linked])]), .attach ⟨[]⟩, .attach ⟨[]⟩,
      .register (.ofEntries [("c".toList, [x]), ("b".toList, [linked, linked])])]
    let snapshot (n : Nat) := ((waiting Recorder .skipIdentical).run (calls.take n)).store
    (snapshot 2).byCrate.entries = [] ∧
      (snapshot 3).byCrate.entries = [("b".toList, []), ("a".toList, [x, linked])] ∧
      (snapshot 5).byCrate.entries =
        [("b".toList, [linked]), ("a".toList, [x, linked]), ("c".toList, [x])] ∧
      (snapshot 2).GrowsTo (snapshot 5) ∧ (snapshot 3).GrowsTo (snapshot 5) ∧
      (snapshot 5).Irredundant := by
  intro x linked calls snapshot
  have h25 := run_grows_at_ends .skipIdentical calls (i := 2) (j := 5) (by decide)
  have h35 := run_grows_at_ends .skipIdentical calls (i := 3) (j := 5) (by decide)
  exact ⟨by decide, by decide, by decide, h25.1, h35.1, h35.2 rfl 5⟩

end Implementors.Registrar
