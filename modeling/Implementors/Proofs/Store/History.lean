import Implementors.Store
import Implementors.Proofs.Catalog.Gathered
import Mathlib

/-!
# What a store has gathered

A store is determined by the entries that were registered with it. Its crates stand in the order in
which they were first mentioned, and each lists all that was ever registered for it, one after
another; if identical implementors are skipped, without those that occurred before.
-/
namespace Implementors

/-- What is kept of all that was registered for a crate. -/
def Policy.kept : Policy → List Implementor → List Implementor
  | .skipIdentical, all => all.eraseDups
  | .keepAll, all => all

theorem Policy.addTo_kept (policy : Policy) (all more : List Implementor) :
    policy.addTo (policy.kept all) more = policy.kept (all ++ more) := by
  induction more generalizing all with
  | nil => rw [List.append_nil]; rfl
  | cons i more ih =>
    have hs : all ++ i :: more = (all ++ [i]) ++ more := by simp
    rw [hs, ← ih (all ++ [i])]
    cases policy with
    | keepAll => rfl
    | skipIdentical =>
      by_cases h : i ∈ all
      · have hk : i ∈ all.eraseDups := List.mem_eraseDups.2 h
        simp only [addTo, kept, hk, if_true, eraseDups_concat_of_mem h]
      · have hk : i ∉ all.eraseDups := fun hm => h (List.mem_eraseDups.1 hm)
        simp only [addTo, kept, hk, if_false, eraseDups_concat_of_not_mem h]

/-- What is added to an empty list is kept as if it had been registered at once. -/
theorem Policy.addTo_nil (policy : Policy) (all : List Implementor) :
    policy.addTo [] all = policy.kept all := by
  have h := policy.addTo_kept [] all
  have hnil : policy.kept [] = [] := by cases policy <;> rfl
  rwa [hnil, List.nil_append] at h

/-- Adding one list after another is adding both of them as one. -/
theorem Policy.addTo_append (policy : Policy) (listed all more : List Implementor) :
    policy.addTo listed (all ++ more) = policy.addTo (policy.addTo listed all) more := by
  induction all generalizing listed with
  | nil => rfl
  | cons i all ih =>
    cases policy with
    | keepAll => exact ih (listed ++ [i])
    | skipIdentical =>
      simp only [List.cons_append, addTo]
      split
      · exact ih listed
      · exact ih (listed ++ [i])

namespace Store

/-- Registers entries one after another, without counting what is added. -/
def registeredOnto (s : Store) (entries : List (Text × List Implementor)) : Store :=
  entries.foldl (fun t e => t.register e.1 e.2) s

theorem mergeEntries_fst (s : Store) (entries : List (Text × List Implementor)) :
    (s.mergeEntries entries).1 = s.registeredOnto entries := by
  induction entries generalizing s with
  | nil => rfl
  | cons e entries ih => exact ih (s.register e.1 e.2)

theorem registeredOnto_cons (s : Store) (e : Text × List Implementor)
    (entries : List (Text × List Implementor)) :
    s.registeredOnto (e :: entries) = (s.register e.1 e.2).registeredOnto entries :=
  rfl

theorem registeredOnto_append (s : Store) (entries more : List (Text × List Implementor)) :
    s.registeredOnto (entries ++ more) = (s.registeredOnto entries).registeredOnto more :=
  List.foldl_append

/-- The policy stays, and the crates are changed by one entry after another. -/
theorem registeredOnto_eq (s : Store) (entries : List (Text × List Implementor)) :
    s.registeredOnto entries = ⟨s.policy, entries.foldl
      (fun c e => c.alter e.1 fun old => s.policy.addTo (old.getD []) e.2) s.byCrate⟩ := by
  induction entries generalizing s with
  | nil => rfl
  | cons e entries ih => exact ih (s.register e.1 e.2)

@[simp] theorem policy_registeredOnto (s : Store) (entries : List (Text × List Implementor)) :
    (s.registeredOnto entries).policy = s.policy := by
  rw [registeredOnto_eq]

/-- Crates that are there keep their places; those that the entries mention first follow. -/
theorem keys_registeredOnto (s : Store) (entries : List (Text × List Implementor)) :
    (s.registeredOnto entries).byCrate.keys =
      s.byCrate.keys ++ (mentioned entries).filter (· ∉ s.byCrate.keys) := by
  rw [registeredOnto_eq, Catalog.keys_foldl_alter_onto]
  exact congrArg _ (List.filter_congr fun _ _ => decide_eq_decide.2 Iff.rfl)

/-- To what a crate lists is added all that the entries list under it, if they mention it at all. -/
theorem get?_registeredOnto (s : Store) (entries : List (Text × List Implementor)) (crate : Text) :
    (s.registeredOnto entries).get? crate =
      if crate ∈ entries.map Prod.fst then
        some (s.policy.addTo ((s.get? crate).getD []) (listedFor crate entries))
      else s.get? crate := by
  rw [registeredOnto_eq]
  have h := Catalog.get?_foldl_alter (fun _ => rfl) s.policy.addTo_append s.byCrate entries crate
  refine h.trans ?_
  congr

theorem keys_registeredOnto_empty (policy : Policy) (entries : List (Text × List Implementor)) :
    ((Store.empty policy).registeredOnto entries).byCrate.keys = mentioned entries := by
  have hkeys : (Store.empty policy).byCrate.keys = [] := rfl
  simp [keys_registeredOnto, hkeys]

/-- What was kept for a crate so far, nothing if it has not been mentioned. -/
theorem get?_registeredOnto_empty (policy : Policy) (entries : List (Text × List Implementor))
    (crate : Text) : ((Store.empty policy).registeredOnto entries).get? crate =
      if crate ∈ entries.map Prod.fst then some (policy.kept (listedFor crate entries))
      else none := by
  rw [get?_registeredOnto, ← Policy.addTo_nil]
  rfl

/-- The crates of a store with what is kept of all that was registered for each. -/
theorem entries_registeredOnto_empty (policy : Policy) (entries : List (Text × List Implementor)) :
    ((Store.empty policy).registeredOnto entries).byCrate.entries =
      (mentioned entries).map fun crate => (crate, policy.kept (listedFor crate entries)) := by
  rw [← keys_registeredOnto_empty policy entries]
  apply Catalog.entries_eq_map_keys
  intro crate hc
  rw [keys_registeredOnto_empty, mem_mentioned] at hc
  exact (get?_registeredOnto_empty policy entries crate).trans (if_pos hc)

/-- Merges mappings one by one, without counting what is added. -/
def mergedOnto (s : Store) (mappings : List Mapping) : Store :=
  mappings.foldl (fun t m => (t.merge m).1) s

theorem mergeAll_fst (s : Store) (mappings : List Mapping) :
    (s.mergeAll mappings).1 = s.mergedOnto mappings := by
  induction mappings generalizing s with
  | nil => rfl
  | cons m mappings ih => exact ih (s.merge m).1

theorem mergedOnto_concat (s : Store) (mappings : List Mapping) (m : Mapping) :
    s.mergedOnto (mappings ++ [m]) = ((s.mergedOnto mappings).merge m).1 :=
  List.foldl_append

/-- Merging mappings is registering all their entries in order. -/
theorem mergedOnto_eq (s : Store) (mappings : List Mapping) :
    s.mergedOnto mappings = s.registeredOnto (mappings.flatMap (·.entries)) := by
  induction mappings generalizing s with
  | nil => rfl
  | cons m mappings ih =>
    rw [List.flatMap_cons, registeredOnto_append, ← mergeEntries_fst s m.entries]
    exact ih (s.merge m).1

theorem mergeAll_fst_eq (s : Store) (mappings : List Mapping) :
    (s.mergeAll mappings).1 = s.registeredOnto (mappings.flatMap (·.entries)) := by
  rw [mergeAll_fst, mergedOnto_eq]

end Store
end Implementors
