import Implementors.Proofs.Store.Runs
import Mathlib

/-!
# Stores that were told in another order

Two stores that are told the same mappings in different orders come to hold the same: the same crates,
and under each the same implementors, only in another order. If identical implementors are skipped, it
is another copy of each that is kept, but the copies are equal. And where no crate is named twice, there
is but one mapping to tell its list, and so nothing to reorder in it.
-/
namespace Implementors

theorem nodup_eraseDups {α : Type} [BEq α] [LawfulBEq α] (l : List α) : l.eraseDups.Nodup := by
  induction l using List.reverseRecOn with
  | nil => exact List.nodup_nil
  | append_singleton l a ih =>
    by_cases h : a ∈ l
    · rwa [eraseDups_concat_of_mem h]
    · rw [eraseDups_concat_of_not_mem h, ← List.concat_eq_append]
      exact ih.concat fun hm => h (List.mem_eraseDups.1 hm)

theorem perm_eraseDups {α : Type} [BEq α] [LawfulBEq α] {l m : List α} (h : l.Perm m) :
    l.eraseDups.Perm m.eraseDups :=
  (List.perm_ext_iff_of_nodup (nodup_eraseDups l) (nodup_eraseDups m)).2 fun a => by
    rw [List.mem_eraseDups, List.mem_eraseDups, h.mem_iff]

theorem Policy.perm_kept (policy : Policy) {all more : List Implementor} (h : all.Perm more) :
    (policy.kept all).Perm (policy.kept more) := by
  cases policy with
  | keepAll => exact h
  | skipIdentical => exact perm_eraseDups h

theorem perm_mentioned {κ α : Type} [DecidableEq κ] {entries more : List (κ × α)}
    (h : entries.Perm more) : (mentioned entries).Perm (mentioned more) :=
  perm_eraseDups (h.map Prod.fst)

theorem perm_listedFor {κ α : Type} [DecidableEq κ] {entries more : List (κ × List α)}
    (h : entries.Perm more) (key : κ) : (listedFor key entries).Perm (listedFor key more) :=
  (h.filter _).flatMap_right _

theorem listedFor_flatMap {κ α β : Type} [DecidableEq κ] (key : κ) (f : β → List (κ × List α))
    (l : List β) : listedFor key (l.flatMap f) = l.flatMap fun b => listedFor key (f b) := by
  simp only [listedFor, List.filter_flatMap, List.flatMap_assoc]

/-- Where at most one list is not empty, their order does not matter. -/
theorem flatMap_eq_of_perm {α β : Type} {f : α → List β} {l m : List α} (h : l.Perm m)
    (hone : l.Pairwise fun a b => f a = [] ∨ f b = []) : l.flatMap f = m.flatMap f := by
  induction h with
  | nil => rfl
  | cons a h ih => rw [List.flatMap_cons, List.flatMap_cons, ih (List.pairwise_cons.1 hone).2]
  | swap a b l =>
    have hab : f b = [] ∨ f a = [] := (List.pairwise_cons.1 hone).1 a List.mem_cons_self
    simp only [List.flatMap_cons]
    rcases hab with hab | hab <;> simp [hab]
  | trans h _ ih₁ ih₂ => exact (ih₁ hone).trans (ih₂ (hone.perm h Or.symm))

/-- The count is the sum of the lengths of all lists. -/
theorem Catalog.count_eq_sum {κ α : Type} [DecidableEq κ] (c : Catalog κ (List α)) :
    c.count = (c.keys.map fun key => ((c.get? key).getD []).length).sum := by
  rw [count, List.length_flatMap, keys, List.map_map]
  refine congrArg List.sum (List.map_congr_left fun e he => ?_)
  simp [c.get?_of_mem he]

/-- The two have the same crates, and under each the same implementors, markup and all, in whatever
order. -/
structure Store.Permutes (s t : Store) : Prop where
  crates : s.byCrate.keys.Perm t.byCrate.keys
  listed : ∀ crate, Option.Rel List.Perm (s.get? crate) (t.get? crate)

/-- No crate is named by both. -/
def Mapping.Disjoint (m n : Mapping) : Prop := ∀ crate ∈ m.keys, crate ∉ n.keys

instance (m n : Mapping) : Decidable (m.Disjoint n) :=
  inferInstanceAs (Decidable (∀ crate ∈ m.keys, crate ∉ n.keys))

namespace Store

theorem Permutes.count_eq {s t : Store} (h : s.Permutes t) : s.count = t.count := by
  have hlength : ∀ crate,
      ((s.get? crate).getD []).length = ((t.get? crate).getD []).length := by
    intro crate
    have hlisted := h.listed crate
    generalize s.get? crate = all, t.get? crate = more at hlisted ⊢
    cases hlisted with
    | some hp => exact hp.length_eq
    | none => rfl
  rw [count, count, Catalog.count_eq_sum, Catalog.count_eq_sum, (h.crates.map _).sum_eq]
  exact congrArg List.sum (List.map_congr_left fun crate _ => hlength crate)

/-- Registering entries in another order permutes the store. -/
theorem permutes_registeredOnto (policy : Policy) {entries more : List (Text × List Implementor)}
    (h : entries.Perm more) :
    ((Store.empty policy).registeredOnto entries).Permutes
      ((Store.empty policy).registeredOnto more) where
  crates := by
    rw [keys_registeredOnto_empty, keys_registeredOnto_empty]
    exact perm_mentioned h
  listed crate := by
    have hm : crate ∈ more.map Prod.fst ↔ crate ∈ entries.map Prod.fst := (h.map _).mem_iff.symm
    rw [get?_registeredOnto_empty, get?_registeredOnto_empty]
    simp only [hm]
    split
    · exact .some (policy.perm_kept (perm_listedFor h crate))
    · exact .none

/-- Where no crate is named by two mappings, all that is listed for it stands in one of them. -/
theorem listedFor_eq_of_disjoint {mappings other : List Mapping} (h : mappings.Perm other)
    (hone : mappings.Pairwise Mapping.Disjoint) (crate : Text) :
    listedFor crate (mappings.flatMap (·.entries)) =
      listedFor crate (other.flatMap (·.entries)) := by
  rw [listedFor_flatMap, listedFor_flatMap]
  refine flatMap_eq_of_perm h (hone.imp fun {m n} hmn => ?_)
  by_cases hm : crate ∈ m.keys
  · exact .inr (listedFor_of_not_mem (hmn crate hm))
  · exact .inl (listedFor_of_not_mem hm)

/-- Two empty stores that are told the same mappings, in different orders, come to hold the same crates,
under each of them the same implementors in some order, and they add equally many. If no crate is named
in two of the mappings, each crate lists the same in the same order. -/
theorem mergeAll_permuted (policy : Policy) {mappings other : List Mapping}
    (h : mappings.Perm other) :
    let s := (Store.empty policy).mergeAll mappings
    let t := (Store.empty policy).mergeAll other
    s.1.Permutes t.1 ∧ s.2 = t.2 ∧
      (mappings.Pairwise Mapping.Disjoint →
        ∀ crate, s.1.get? crate = t.1.get? crate) := by
  intro s t
  have hentries := h.flatMap_right (·.entries)
  have hpermutes : s.1.Permutes t.1 := by
    rw [mergeAll_fst_eq, mergeAll_fst_eq]
    exact permutes_registeredOnto policy hentries
  refine ⟨hpermutes, ?_, fun hone crate => ?_⟩
  · have hs := (Store.empty policy).count_mergeAll mappings
    have ht := (Store.empty policy).count_mergeAll other
    have hcount := hpermutes.count_eq
    rw [hs, ht] at hcount
    exact Nat.add_left_cancel hcount
  · have hm : crate ∈ (other.flatMap (·.entries)).map Prod.fst ↔
        crate ∈ (mappings.flatMap (·.entries)).map Prod.fst := (hentries.map _).mem_iff.symm
    rw [mergeAll_fst_eq, mergeAll_fst_eq, get?_registeredOnto_empty,
      get?_registeredOnto_empty, listedFor_eq_of_disjoint h hone crate]
    simp only [hm]

set_option maxRecDepth 2000 in
/-- The first two mappings name two crates in common, and an implementor that both of them list stays
where it came first. The first and the last one share no crate. -/
theorem mergeAll_permuted_shared_crate :
    let x : Implementor := .plain (.ofNames "X".toList "T".toList)
    let y : Implementor := .plain (.ofNames "Y".toList "T".toList)
    let linked : Implementor := ⟨x.header, some "<a>X</a>".toList⟩
    let m : Mapping := ⟨[("a".toList, [x, y]), ("b".toList, [])], by decide⟩
    let n : Mapping := ⟨[("b".toList, [y]), ("a".toList, [linked, y])], by decide⟩
    let p : Mapping := ⟨[("c".toList, [x])], by decide⟩
    let s := (Store.empty .skipIdentical).mergeAll [m, n]
    let t := (Store.empty .skipIdentical).mergeAll [n, m]
    s.1.get? "a".toList = some [x, y, linked] ∧ t.1.get? "a".toList = some [linked, y, x] ∧
      s.1.Permutes t.1 ∧ s.2 = t.2 ∧
      ((Store.empty .skipIdentical).mergeAll [m, p]).1.get? "a".toList =
        ((Store.empty .skipIdentical).mergeAll [p, m]).1.get? "a".toList := by
  intro x y linked m n p s t
  have hone : [m, p].Pairwise Mapping.Disjoint := by decide
  obtain ⟨hpermutes, hadded, -⟩ := mergeAll_permuted .skipIdentical (List.Perm.swap n m [])
  obtain ⟨-, -, hsame⟩ := mergeAll_permuted .skipIdentical (List.Perm.swap p m [])
  exact ⟨by decide, by decide, hpermutes, hadded, hsame hone "a".toList⟩

end Store
end Implementors
