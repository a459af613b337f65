import Implementors.Mapping
import Implementors.Proofs.Catalog
import Mathlib

/-!
# Fragments and their mappings

The mapping of a fragment lists for each crate what its items are read as. Every implementor that was
read carries the markup that it was read from. So on the way back nothing is rendered, whatever the
markup was read as, and two implementors are told apart by their markup.
-/
namespace Implementors

theorem Markup.read_injective : Function.Injective Markup.read := by
  intro a b h
  simpa [Markup.read] using congrArg Implementor.markup h

theorem Implementor.shown_read (links : LinkTable) (markup : Text) :
    Implementor.shown links (Markup.read markup) = markup :=
  rfl

theorem Mapping.entries_ofFragment (f : Fragment) :
    (Mapping.ofFragment f).entries = f.entries.map fun e => (e.1, e.2.map Markup.read) := by
  have hd : ((f.entries.map fun e => (e.1, e.2.map Markup.read)).map Prod.fst).Nodup := by
    rw [List.map_map]
    exact f.distinct
  have h := Catalog.entries_foldl_alter
    (fun (e : Text × List Implementor) old => old.getD [] ++ e.2) hd Catalog.empty (by simp)
  exact h.trans (List.map_id' _)

namespace Fragment

/-- The fragment of a mapping is made by assigning the crates one after another. -/
theorem ofMapping_eq_foldl_assign (links : LinkTable) (m : Mapping) :
    ofMapping links m = m.entries.foldl
      (fun f e => assign f e.1 (e.2.map (Implementor.shown links))) Catalog.empty := by
  have h := Catalog.foldl_insert_entries (ofMapping links m)
  have he : (ofMapping links m).entries =
      m.entries.map fun e => (e.1, e.2.map (Implementor.shown links)) := rfl
  rw [he, List.foldl_map] at h
  exact h.symm

/-- A fragment comes back unchanged from its mapping, under every link table: the same crates in the
same order, with the same markup, however that is read. In the mapping, two items are identical just
if they are the same markup. -/
theorem ofMapping_ofFragment (links : LinkTable) (f : Fragment) :
    ofMapping links (Mapping.ofFragment f) = f ∧
      (ofMapping links (Mapping.ofFragment f)).emit = f.emit ∧
      (Mapping.ofFragment f).entries = f.entries.map (fun e => (e.1, e.2.map Markup.read)) ∧
      ∀ a b, (Markup.read a).SameHeader (Markup.read b) ∧
        (Markup.read a).markup = (Markup.read b).markup ↔ a = b := by
  have hitems : ∀ items : List Text,
      (items.map Markup.read).map (Implementor.shown links) = items := by
    intro items
    rw [List.map_map]
    exact (List.map_congr_left fun markup _ => Implementor.shown_read links markup).trans
      (List.map_id' items)
  have hback : ofMapping links (Mapping.ofFragment f) = f := by
    rw [ofMapping_eq_foldl_assign, Mapping.entries_ofFragment, List.foldl_map]
    simp only [hitems]
    exact f.foldl_insert_entries
  refine ⟨hback, congrArg emit hback, Mapping.entries_ofFragment f, fun a b => ?_⟩
  rw [← Implementor.eq_iff]
  exact Markup.read_injective.eq_iff

end Fragment
end Implementors
