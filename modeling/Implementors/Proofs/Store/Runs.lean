import Implementors.Proofs.Store.History
import Mathlib

/-!
# Runs of a store

A run is any sequence of registrations and merges. A merge registers the entries of its mapping in
their order, so the store that a run leaves is determined by the entries of its calls, one after
another. Every call answers how much it added, and no list ever loses anything, so the answers add up
to what the store holds.
-/
namespace Implementors

/-- A list only grows at its end. -/
theorem Policy.prefix_addTo (policy : Policy) (listed more : List Implementor) :
    listed <+: policy.addTo listed more := by
  induction more generalizing listed with
  | nil => exact List.prefix_refl listed
  | cons i more ih =>
    have hgrown := (List.prefix_append listed [i]).trans (ih (listed ++ [i]))
    cases policy with
    | keepAll => exact hgrown
    | skipIdentical =>
      rw [addTo]
      split
      · exact ih listed
      · exact hgrown

/-- Nothing is left out that is not listed already. -/
theorem Policy.mem_addTo {policy : Policy} {listed more : List Implementor} {i : Implementor} :
    i ∈ policy.addTo listed more ↔ i ∈ listed ∨ i ∈ more := by
  induction more generalizing listed with
  | nil => simp [addTo]
  | cons j more ih =>
    cases policy with
    | keepAll => simp [addTo, ih, or_assoc]
    | skipIdentical =>
      rw [addTo]
      split
      · next hj =>
        rw [ih, List.mem_cons]
        refine ⟨Or.imp_right .inr, ?_⟩
        rintro (hi | rfl | hi)
        · exact .inl hi
        · exact .inl hj
        · exact .inr hi
      · simp [ih, or_assoc]

/-- Whatever was registered is kept at least once. -/
theorem Policy.mem_kept {policy : Policy} {all : List Implementor} {i : Implementor} :
    i ∈ policy.kept all ↔ i ∈ all := by
  rw [← addTo_nil, mem_addTo]
  simp

namespace Store

/-- What may be asked of a store. -/
inductive Call where
  | register (crate : Text) (implementors : List Implementor)
  | merge (m : Mapping)

/-- The entries that a call registers: one, or those of its mapping in their order. -/
def Call.entries : Call → List (Text × List Implementor)
  | .register crate implementors => [(crate, implementors)]
  | .merge m => m.entries

/-- Carries out a call; answers the number of implementors that it added. -/
def perform (s : Store) : Call → Store × Nat
  | .register crate implementors => (s.register crate implementors, s.added crate implementors)
  | .merge m => s.merge m

/-- Carries out calls one after another, with the answer to each. -/
def run (s : Store) : List Call → Store × List Nat
  | [] => (s, [])
  | c :: calls =>
    let (t, n) := s.perform c
    let (u, answers) := t.run calls
    (u, n :: answers)

theorem perform_fst (s : Store) (c : Call) : (s.perform c).1 = s.registeredOnto c.entries := by
  cases c with
  | register crate implementors => rfl
  | merge m => exact s.mergeEntries_fst m.entries

theorem count_register (s : Store) (crate : Text) (implementors : List Implementor) :
    (s.register crate implementors).count = s.count + s.added crate implementors := by
  let grown := s.policy.addTo ((s.get? crate).getD []) implementors
  have hcount : (s.register crate implementors).count + (s.get? crate).elim 0 List.length =
      s.count + grown.length :=
    s.byCrate.count_alter crate fun old => s.policy.addTo (old.getD []) implementors
  have hnew : (s.register crate implementors).get? crate = some grown :=
    (Catalog.get?_alter _ _ _ _).trans (if_pos rfl)
  have hold : ((s.get? crate).getD []).length = (s.get? crate).elim 0 List.length := by
    cases s.get? crate <;> rfl
  have hle : ((s.get? crate).getD []).length ≤ grown.length :=
    (s.policy.prefix_addTo _ implementors).length_le
  rw [added, hnew, Option.elim_some]
  omega

theorem count_mergeEntries (s : Store) (entries : List (Text × List Implementor)) :
    (s.mergeEntries entries).1.count = s.count + (s.mergeEntries entries).2 := by
  induction entries generalizing s with
  | nil => rfl
  | cons e entries ih =>
    have hrest := ih (s.register e.1 e.2)
    rw [count_register, Nat.add_assoc] at hrest
    exact hrest

theorem count_mergeAll (s : Store) (mappings : List Mapping) :
    (s.mergeAll mappings).1.count = s.count + (s.mergeAll mappings).2 := by
  induction mappings generalizing s with
  | nil => rfl
  | cons m mappings ih =>
    have hrest := ih (s.merge m).1
    have hfirst : (s.merge m).1.count = s.count + (s.merge m).2 := s.count_mergeEntries m.entries
    rw [hfirst, Nat.add_assoc] at hrest
    exact hrest

/-- The answer to a call is by how much the count grows. -/
theorem count_perform (s : Store) (c : Call) :
    (s.perform c).1.count = s.count + (s.perform c).2 := by
  cases c with
  | register crate implementors => exact s.count_register crate implementors
  | merge m => exact s.count_mergeEntries m.entries

theorem run_fst (s : Store) (calls : List Call) :
    (s.run calls).1 = s.registeredOnto (calls.flatMap Call.entries) := by
  induction calls generalizing s with
  | nil => rfl
  | cons c calls ih =>
    rw [run, ih, perform_fst, List.flatMap_cons, registeredOnto_append]

theorem count_run (s : Store) (calls : List Call) :
    (s.run calls).1.count = s.count + (s.run calls).2.sum := by
  induction calls generalizing s with
  | nil => rfl
  | cons c calls ih =>
    rw [run, ih, count_perform, List.sum_cons, Nat.add_assoc]

/-- After any run on an empty store, its crates stand in the order of their first mention, those that
were mentioned with nothing included. Each lists all that was registered for it, one after another, if
identical implementors are skipped without those that occurred before; so of each implementor, markup
and all, something is listed, also of two that have the same header and different markup. The answers
to the calls add up to the count. -/
theorem run_lists_first_occurrences (policy : Policy) (calls : List Call) :
    let entries := calls.flatMap Call.entries
    let (s, answers) := (Store.empty policy).run calls
    s.byCrate.keys = mentioned entries ∧
      (∀ crate, s.get? crate =
        if crate ∈ entries.map Prod.fst then some (policy.kept (listedFor crate entries))
        else none) ∧
      (∀ crate i, i ∈ (s.get? crate).getD [] ↔ i ∈ listedFor crate entries) ∧
      answers.sum = s.count := by
  intro entries
  have hs := (Store.empty policy).run_fst calls
  have hcount := (Store.empty policy).count_run calls
  have hzero : (Store.empty policy).count = 0 := rfl
  rw [hzero, Nat.zero_add] at hcount
  have hget := get?_registeredOnto_empty policy entries
  refine ⟨?_, fun crate => ?_, fun crate i => ?_, hcount.symm⟩
  · rw [hs]
    exact keys_registeredOnto_empty policy entries
  · rw [hs]
    exact hget crate
  · rw [hs, hget crate]
    by_cases hm : crate ∈ entries.map Prod.fst
    · rw [if_pos hm]
      exact Policy.mem_kept
    · rw [if_neg hm, listedFor_of_not_mem hm]
      rfl

/-- The header is the same, the markup is not. -/
example :
    let plain : Implementor := .plain (.ofNames "X".toList "T".toList)
    let linked : Implementor := ⟨plain.header, some "<a>X</a>".toList⟩
    let m := Mapping.ofEntries [("b".toList, []), ("a".toList, [plain, linked])]
    let (s, answers) := (Store.empty .skipIdentical).run
      [.register "a".toList [linked, linked], .merge m]
    s.byCrate.entries = [("a".toList, [linked, plain]), ("b".toList, [])] ∧ answers = [1, 1] := by
  decide

end Store
end Implementors
