import Implementors.Proofs.Store.Runs
import Mathlib

/-!
# A store grows at its ends

Whatever is registered, a store keeps what it has where it is: new crates come after the old ones, and
new implementors of a crate after those that it lists. If identical implementors are skipped, nothing is
ever listed twice.
-/
namespace Implementors

/-- Skipping identical implementors, nothing is listed twice that was not before. -/
theorem Policy.nodup_addTo {listed : List Implementor} (h : listed.Nodup)
    (more : List Implementor) : (Policy.skipIdentical.addTo listed more).Nodup := by
  induction more generalizing listed with
  | nil => exact h
  | cons i more ih =>
    rw [addTo]
    split
    · exact ih h
    · next hi =>
      refine ih ?_
      rw [← List.concat_eq_append]
      exact h.concat hi

namespace Store

/-- The other store has the same crates and under each the same implementors, markup and all, each in
the same order, and perhaps more behind them. -/
structure GrowsTo (s t : Store) : Prop where
  crates : s.byCrate.keys <+: t.byCrate.keys
  listed : ∀ crate, ∀ listed ∈ s.get? crate, ∃ all ∈ t.get? crate, listed <+: all

/-- No crate lists an implementor twice, markup and all. -/
def Irredundant (s : Store) : Prop := ∀ crate, ∀ listed ∈ s.get? crate, listed.Nodup

theorem growsTo_registeredOnto (s : Store) (entries : List (Text × List Implementor)) :
    s.GrowsTo (s.registeredOnto entries) where
  crates := by
    rw [keys_registeredOnto]
    exact List.prefix_append _ _
  listed crate listed hget := by
    rw [get?_registeredOnto]
    split
    · rw [hget]
      exact ⟨_, rfl, s.policy.prefix_addTo listed _⟩
    · exact ⟨listed, hget, List.prefix_refl listed⟩

theorem Irredundant.registeredOnto {s : Store} (h : s.Irredundant) (hs : s.policy = .skipIdentical)
    (entries : List (Text × List Implementor)) : (s.registeredOnto entries).Irredundant := by
  intro crate listed hget
  rw [get?_registeredOnto] at hget
  split at hget
  · obtain rfl := Option.mem_some_iff.1 hget
    rw [hs]
    refine Policy.nodup_addTo ?_ _
    cases hold : s.get? crate with
    | none => exact List.nodup_nil
    | some old => exact h crate old hold
  · exact h crate listed hget

end Store

end Implementors
