import Implementors.Proofs.Store.Growth
import Mathlib

/-!
# Mappings that a store absorbs

What a crate lists stays listed whatever is registered later. So a store that skips identical
implementors absorbs what it has been told before: a mapping whose implementors were all in an earlier
one adds nothing, in whatever order it names them, however often, and whatever was merged in between.
-/
namespace Implementors

/-- Under a key the catalog lists all of some values, in whatever order. -/
def Catalog.Lists {κ α : Type} [DecidableEq κ] (c : Catalog κ (List α)) (key : κ)
    (values : List α) : Prop :=
  ∃ listed ∈ c.get? key, values ⊆ listed

instance {κ α : Type} [DecidableEq κ] [DecidableEq α] (c : Catalog κ (List α)) (key : κ)
    (values : List α) : Decidable (c.Lists key values) :=
  inferInstanceAs (Decidable (∃ listed ∈ c.get? key, values ⊆ listed))

/-- The mapping lists whatever another one does, under the same crates. -/
def Mapping.Covers (m n : Mapping) : Prop := ∀ e ∈ n.entries, m.Lists e.1 e.2

instance (m n : Mapping) : Decidable (m.Covers n) :=
  inferInstanceAs (Decidable (∀ e ∈ n.entries, m.Lists e.1 e.2))

/-- If all are listed already, nothing is added. -/
theorem Policy.addTo_of_subset {listed more : List Implementor} (h : more ⊆ listed) :
    Policy.skipIdentical.addTo listed more = listed := by
  induction more with
  | nil => rfl
  | cons i more ih =>
    obtain ⟨hi, hmore⟩ := List.cons_subset.1 h
    rw [addTo, if_pos hi]
    exact ih hmore

namespace Store

/-- What is registered for a crate is listed there. -/
theorem lists_register (s : Store) (crate : Text) (implementors : List Implementor) :
    (s.register crate implementors).byCrate.Lists crate implementors :=
  ⟨_, (Catalog.get?_alter _ _ _ _).trans (if_pos rfl), fun _ hi => Policy.mem_addTo.2 (.inr hi)⟩

variable {s : Store} {crate : Text} {implementors : List Implementor}
  {entries : List (Text × List Implementor)}

/-- Registering anything for any crate keeps what is listed. -/
theorem lists_registeredOnto_of_lists (h : s.byCrate.Lists crate implementors) :
    (s.registeredOnto entries).byCrate.Lists crate implementors := by
  obtain ⟨listed, hget, hin⟩ := h
  obtain ⟨all, hall, hgrown⟩ := (s.growsTo_registeredOnto entries).listed crate listed hget
  exact ⟨all, hall, fun i hi => hgrown.subset (hin hi)⟩

/-- What was registered for a crate is listed there, whatever was registered later. -/
theorem lists_registeredOnto {e : Text × List Implementor} (h : e ∈ entries) (s : Store) :
    (s.registeredOnto entries).byCrate.Lists e.1 e.2 := by
  obtain ⟨before, after, rfl⟩ := List.append_of_mem h
  rw [registeredOnto_append, registeredOnto_cons]
  exact lists_registeredOnto_of_lists (lists_register _ e.1 e.2)

/-- Registering what is listed changes nothing. -/
theorem register_of_lists (hs : s.policy = .skipIdentical)
    (h : s.byCrate.Lists crate implementors) : s.register crate implementors = s := by
  obtain ⟨listed, hget, hin⟩ := h
  have hsame : s.policy.addTo ((some listed).getD []) implementors = listed := by
    rw [hs]
    exact Policy.addTo_of_subset hin
  rw [register, Catalog.alter_of_get? hget hsame]

/-- Nor do entries one after another, if all that they list is listed. -/
theorem mergeEntries_of_lists (hs : s.policy = .skipIdentical)
    (h : ∀ e ∈ entries, s.byCrate.Lists e.1 e.2) : s.mergeEntries entries = (s, 0) := by
  induction entries with
  | nil => rfl
  | cons e entries ih =>
    obtain ⟨he, hrest⟩ := List.forall_mem_cons.1 h
    have hregister := register_of_lists hs he
    have hadded : s.added e.1 e.2 = 0 := by rw [added, hregister, Nat.sub_self]
    rw [mergeEntries, hregister, ih hrest, hadded]

/-- A store that skips identical implementors, whatever it held, was told a mapping and then any
others. A mapping that lists nothing but what the first of these did then adds nothing, and the store
stays as it is: the order of the crates, that of the implementors, and their markup. -/
theorem merge_absorbed {m n : Mapping} (hs : s.policy = .skipIdentical) (hn : m.Covers n)
    (later : List Mapping) :
    let t := (s.mergeAll (m :: later)).1
    t.merge n = (t, 0) := by
  intro t
  have ht : t = s.registeredOnto ((m :: later).flatMap (·.entries)) := s.mergeAll_fst_eq _
  have hpolicy : t.policy = .skipIdentical := by rw [ht, policy_registeredOnto, hs]
  refine mergeEntries_of_lists hpolicy fun e he => ?_
  obtain ⟨listed, hget, hin⟩ := hn e he
  have hmem : (e.1, listed) ∈ (m :: later).flatMap (·.entries) :=
    List.mem_flatMap.2 ⟨m, List.mem_cons_self, Catalog.mem_of_find? hget⟩
  obtain ⟨all, hall, hlisted⟩ := ht ▸ lists_registeredOnto hmem s
  exact ⟨all, hall, List.Subset.trans hin hlisted⟩

/-- The crates are named in the other order, one implementor twice and one not at all. In between, an
implementor with the same header and other markup arrived. -/
theorem merge_absorbed_reordered :
    let plain : Implementor := .plain (.ofNames "X".toList "T".toList)
    let linked : Implementor := ⟨plain.header, some "<a>X</a>".toList⟩
    let other : Implementor := .plain (.ofNames "Y".toList "T".toList)
    let s : Store := ⟨.skipIdentical, ⟨[("b".toList, [other, other])], by decide⟩⟩
    let m : Mapping := ⟨[("a".toList, [plain, other]), ("b".toList, [plain])], by decide⟩
    let between : Mapping := ⟨[("c".toList, []), ("a".toList, [linked])], by decide⟩
    let n : Mapping := ⟨[("b".toList, [plain, plain]), ("a".toList, [other])], by decide⟩
    let t : Store := ⟨.skipIdentical, ⟨[("b".toList, [other, other, plain]),
      ("a".toList, [plain, other, linked]), ("c".toList, [])], by decide⟩⟩
    s.policy = .skipIdentical ∧ m.Covers n ∧ (s.mergeAll [m, between]).1 = t ∧
      t.merge n = (t, 0) := by
  intro plain linked other s m between n t
  have hn : m.Covers n := by decide
  have ht : (s.mergeAll [m, between]).1 = t := by decide
  exact ⟨rfl, hn, ht, ht ▸ merge_absorbed rfl hn [between]⟩

end Store
end Implementors
