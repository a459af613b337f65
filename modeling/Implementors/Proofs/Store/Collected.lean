import Implementors.Proofs.Catalog.Gathered
import Implementors.Proofs.Store.Runs
import Mathlib

/-!
# Entries collected before they are merged

Collecting entries in a mapping brings all entries of a crate to the place of its first one, and so
changes the order in which crates are registered. A store does not notice: what becomes of it depends
only on the crates in order of first mention and on what is listed for each of them, and that is just
what the mapping keeps.
-/
namespace Implementors

variable {entries more : List (Text × List Implementor)}

namespace Mapping

theorem keys_ofEntries (entries : List (Text × List Implementor)) :
    (ofEntries entries).keys = mentioned entries :=
  Catalog.keys_appendAll_empty entries

theorem getD_get?_ofEntries (entries : List (Text × List Implementor)) (crate : Text) :
    ((ofEntries entries).get? crate).getD [] = listedFor crate entries :=
  Catalog.getD_get?_appendAll_empty entries crate

/-- A mapping is what its own entries are collected to. -/
theorem ofEntries_entries (m : Mapping) : ofEntries m.entries = m := Catalog.appendAll_entries m

end Mapping

namespace Store

/-- What becomes of a store depends only on what the entries registered with it are collected to. -/
theorem registeredOnto_eq_of_ofEntries_eq (s : Store)
    (h : Mapping.ofEntries entries = Mapping.ofEntries more) :
    s.registeredOnto entries = s.registeredOnto more := by
  have hm : mentioned entries = mentioned more := by
    rw [← Mapping.keys_ofEntries, h, Mapping.keys_ofEntries]
  have hcrates : (s.registeredOnto entries).byCrate = (s.registeredOnto more).byCrate := by
    refine Catalog.ext_get? ?_ fun crate => ?_
    · rw [keys_registeredOnto, keys_registeredOnto, hm]
    · have hl : listedFor crate entries = listedFor crate more := by
        rw [← Mapping.getD_get?_ofEntries, h, Mapping.getD_get?_ofEntries]
      have hin : crate ∈ entries.map Prod.fst ↔ crate ∈ more.map Prod.fst := by
        rw [← mem_mentioned, ← mem_mentioned, hm]
      refine (get?_registeredOnto s entries crate).trans ?_
      simp only [hl, hin]
      exact (get?_registeredOnto s more crate).symm
  have hpolicy : (s.registeredOnto entries).policy = (s.registeredOnto more).policy := by simp
  calc s.registeredOnto entries
      = ⟨(s.registeredOnto entries).policy, (s.registeredOnto entries).byCrate⟩ := rfl
    _ = s.registeredOnto more := by rw [hcrates, hpolicy]

/-- Merging a mapping is registering the entries that it was collected from. -/
theorem merge_ofEntries_fst (s : Store) (entries : List (Text × List Implementor)) :
    (s.merge (Mapping.ofEntries entries)).1 = s.registeredOnto entries := by
  rw [merge, mergeEntries_fst]
  exact s.registeredOnto_eq_of_ofEntries_eq (Mapping.ofEntries_entries _)

/-- Blocks of entries are merged, each as the mapping that it is collected to, by registering all of
their entries. -/
theorem mergeAll_ofEntries_fst (s : Store) (blocks : List (List (Text × List Implementor))) :
    (s.mergeAll (blocks.map Mapping.ofEntries)).1 = s.registeredOnto blocks.flatten := by
  induction blocks generalizing s with
  | nil => rfl
  | cons block blocks ih =>
    rw [List.flatten_cons, registeredOnto_append, ← merge_ofEntries_fst s block]
    exact ih _

theorem flatMap_entries_register (entries : List (Text × List Implementor)) :
    (entries.map fun e => Call.register e.1 e.2).flatMap Call.entries = entries := by
  simp [List.flatMap_map, Call.entries]

/-- However entries are cut into blocks: a store comes to be the same, and as many implementors are
added, whether all of them are collected in one mapping and that is merged, or the blocks are collected
and merged one by one, or the entries are registered one by one. -/
theorem merge_collected (s : Store) (blocks : List (List (Text × List Implementor))) :
    let once := s.merge (Mapping.ofEntries blocks.flatten)
    let run := s.run (blocks.flatten.map fun e => .register e.1 e.2)
    s.mergeAll (blocks.map Mapping.ofEntries) = once ∧ (run.1, run.2.sum) = once := by
  intro once run
  have honce : once.1 = s.registeredOnto blocks.flatten := s.merge_ofEntries_fst _
  have hcount : once.1.count = s.count + once.2 := s.count_mergeEntries _
  constructor
  · have hall := s.mergeAll_ofEntries_fst blocks
    have hadded := s.count_mergeAll (blocks.map Mapping.ofEntries)
    rw [hall, ← honce, hcount] at hadded
    exact Prod.ext (hall.trans honce.symm) (Nat.add_left_cancel hadded).symm
  · have hrun : run.1 = s.registeredOnto blocks.flatten := by
      rw [s.run_fst, flatMap_entries_register]
    have hadded : run.1.count = s.count + run.2.sum := s.count_run _
    rw [hrun, ← honce, hcount] at hadded
    exact Prod.ext (hrun.trans honce.symm) (Nat.add_left_cancel hadded).symm

example :
    let x : Implementor := .plain (.ofNames "X".toList "T".toList)
    let y : Implementor := .plain (.ofNames "Y".toList "T".toList)
    let s : Store := ⟨.skipIdentical, ⟨[("b".toList, [y])], by decide⟩⟩
    let blocks := [[("a".toList, [x]), ("b".toList, [])], [("a".toList, [y, x]), ("b".toList, [x])]]
    s.mergeAll (blocks.map Mapping.ofEntries) =
      (⟨.skipIdentical, ⟨[("b".toList, [y, x]), ("a".toList, [x, y])], by decide⟩⟩, 3) := by
  decide

end Store
end Implementors
