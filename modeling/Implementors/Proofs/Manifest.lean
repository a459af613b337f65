import Implementors.Command.Emit
import Implementors.Manifest.Reader
import Implementors.Proofs.Catalog.Gathered
import Implementors.Proofs.Nesting
import Mathlib

/-!
# What a sound manifest lists

Every entry of a sound manifest names a trait by its path. So the entries are sections, each a trait
with some impls, and the scripts of the manifest are its traits in order of first mention, each with
the markup of all its impls.

The where clause of an impl is a list of texts that are set a comma and a space apart. It is divided
there again, unless a text leaves a bracket open for the next one.
-/
namespace Implementors.Manifest

/-- The entries that name a trait by its path, with that path. -/
def sections (m : Manifest) : List (TraitPath × List ImplEntry) :=
  m.traits.filterMap fun entry => (TraitPath.parse entry.path).toOption.map (·, entry.impls)

/-- The traits of a manifest in order of first mention. -/
def paths (m : Manifest) : List TraitPath := mentioned m.sections

/-- The headers of the impls of a trait, over all entries for it in their order. -/
def headersOf (m : Manifest) (p : TraitPath) : List Header :=
  (listedFor p m.sections).map (·.header p.name)

/-- The markup of the impls of a trait. -/
def markupOf (m : Manifest) (p : TraitPath) : List Text := (m.headersOf p).map (·.render m.links)

/-- Every entry names a trait by its path. -/
def NamesTraits (m : Manifest) : Prop :=
  ∀ entry ∈ m.traits, ∃ p, TraitPath.parse entry.path = .ok p

/-- What is read has passed the check. -/
theorem check_of_parse {source : Text} {m : Manifest} (h : parse source = .ok m) :
    m.check = .ok m := by
  have hself : ∀ {a b : Manifest}, a.check = .ok b → a = b := by
    intro a b hab
    rw [check] at hab
    split at hab
    · cases hab
    split at hab
    · cases hab
    split at hab <;> cases hab
    rfl
  rw [parse] at h
  split at h
  · next a _ =>
    obtain rfl := hself h
    exact h
  · cases h

theorem of_check {m : Manifest} (h : m.check = .ok m) : m.traits ≠ [] ∧ m.NamesTraits := by
  rw [check] at h
  split at h
  · cases h
  split at h
  · cases h
  · next hne =>
    refine ⟨fun he => hne (by rw [he]; rfl), fun entry hm => ?_⟩
    split at h
    · cases h
    · next hnone =>
      have hp := List.findSome?_eq_none_iff.1 hnone entry hm
      cases hr : TraitPath.parse entry.path with
      | ok p => exact ⟨p, rfl⟩
      | error e =>
        rw [hr] at hp
        cases hp

theorem mem_paths {m : Manifest} {p : TraitPath} :
    p ∈ m.paths ↔ ∃ entry ∈ m.traits, TraitPath.parse entry.path = .ok p := by
  rw [paths, mem_mentioned, sections, List.map_filterMap, List.mem_filterMap]
  refine exists_congr fun entry => and_congr_right fun _ => ?_
  cases TraitPath.parse entry.path <;> simp [Except.toOption]

theorem paths_ne_nil {m : Manifest} (h : m.check = .ok m) : m.paths ≠ [] := by
  obtain ⟨hne, hp⟩ := of_check h
  obtain ⟨entry, rest, he⟩ := List.exists_cons_of_ne_nil hne
  obtain ⟨p, hr⟩ := hp entry (he ▸ List.mem_cons_self)
  exact List.ne_nil_of_mem (mem_paths.2 ⟨entry, he ▸ List.mem_cons_self, hr⟩)

theorem nodup_paths (m : Manifest) : m.paths.Nodup := by
  rw [paths, ← Catalog.keys_appendAll_empty]
  exact (Catalog.empty.appendAll m.sections).distinct

theorem map_fst_markup (m : Manifest) (traits : List TraitPath) :
    (traits.map fun p => (p, m.markupOf p)).map Prod.fst = traits := by
  rw [List.map_map]
  exact List.map_id _

/-- Entry after entry, the markup of its impls is put under its trait. -/
theorem scriptsFrom_eq (m : Manifest) (scripts : Catalog TraitPath (List Text))
    {traits : List TraitEntry} (h : ∀ entry ∈ traits, ∃ p, TraitPath.parse entry.path = .ok p) :
    m.scriptsFrom scripts traits = .ok (scripts.appendAll
      ((traits.filterMap fun entry => (TraitPath.parse entry.path).toOption.map
        (·, entry.impls)).map fun s => (s.1, m.renderings s.1.name s.2))) := by
  induction traits generalizing scripts with
  | nil => rfl
  | cons entry traits ih =>
    obtain ⟨p, hp⟩ := h entry List.mem_cons_self
    have hs : (TraitPath.parse entry.path).toOption.map (·, entry.impls) = some (p, entry.impls) := by
      rw [hp]
      rfl
    have hcons := List.filterMap_cons_some
      (f := fun entry : TraitEntry => (TraitPath.parse entry.path).toOption.map (·, entry.impls))
      (l := traits) hs
    rw [hcons, scriptsFrom, hp]
    exact ih _ fun e he => h e (List.mem_cons_of_mem _ he)

/-- The scripts of a manifest are its traits with the markup of their impls. -/
theorem scripts_eq {m : Manifest} (h : m.NamesTraits) :
    ∃ scripts, m.scripts = .ok scripts ∧
      scripts.entries = m.paths.map fun p => (p, m.markupOf p) := by
  refine ⟨_, scriptsFrom_eq m Catalog.empty h, ?_⟩
  let render (p : TraitPath) (i : ImplEntry) : Text := (i.header p.name).render m.links
  have hr : (fun s : TraitPath × List ImplEntry => (s.1, m.renderings s.1.name s.2)) =
      fun s => (s.1, s.2.map (render s.1)) := rfl
  rw [← sections, hr, Catalog.entries_appendAll_empty, mentioned_map fun p => List.map (render p),
    paths]
  refine List.map_congr_left fun p _ => ?_
  rw [listedFor_map, markupOf, headersOf, List.map_map]
  rfl

/-- The manifest with only those of its entries that are for some given traits. -/
def only (m : Manifest) (traits : List TraitPath) : Manifest :=
  { m with traits := m.traits.filter fun entry => TraitPath.parse entry.path ∈ traits.map .ok }

theorem NamesTraits.only {m : Manifest} (h : m.NamesTraits) (traits : List TraitPath) :
    (m.only traits).NamesTraits :=
  fun entry hm => h entry (List.mem_of_mem_filter hm)

theorem sections_only (m : Manifest) (traits : List TraitPath) :
    (m.only traits).sections = m.sections.filter fun s => decide (s.1 ∈ traits) := by
  rw [sections, sections, only, List.filter_filterMap, List.filterMap_filter]
  refine List.filterMap_congr fun entry _ => ?_
  cases hp : TraitPath.parse entry.path with
  | error e => simp [Except.toOption]
  | ok p => by_cases hm : p ∈ traits <;> simp [Except.toOption, Option.filter, hm]

/-- It lists these traits in the order of the whole manifest. -/
theorem paths_only (m : Manifest) (traits : List TraitPath) :
    (m.only traits).paths = m.paths.filter fun p => decide (p ∈ traits) := by
  rw [paths, sections_only, paths]
  exact mentioned_filter (fun p => decide (p ∈ traits)) m.sections

/-- The first traits of a manifest are listed as they are there. -/
theorem paths_only_of_append {m : Manifest} {before after : List TraitPath}
    (h : m.paths = before ++ after) : (m.only before).paths = before := by
  have hnodup := m.nodup_paths
  rw [h, List.nodup_append] at hnodup
  have hafter : after.filter (fun p => decide (p ∈ before)) = [] := by
    refine List.filter_eq_nil_iff.2 fun p hp hb => ?_
    exact hnodup.2.2 p (of_decide_eq_true hb) p hp rfl
  have hbefore : before.filter (fun p => decide (p ∈ before)) = before :=
    List.filter_eq_self.2 fun p hp => decide_eq_true hp
  rw [paths_only, h, List.filter_append, hafter, hbefore, List.append_nil]

/-- Each of them has the markup that it has in the whole manifest. -/
theorem markupOf_only (m : Manifest) {traits : List TraitPath} {p : TraitPath} (h : p ∈ traits) :
    (m.only traits).markupOf p = m.markupOf p := by
  have hl := listedFor_filter (fun p => decide (p ∈ traits)) (decide_eq_true h) m.sections
  rw [markupOf, markupOf, headersOf, headersOf, sections_only, hl]
  rfl

end Implementors.Manifest

namespace Implementors.ImplEntry

/-- An impl has the predicates of each text of its where clause in order, if all of them but the last
end at depth zero. A text that is not blank and has no comma at the top level is one predicate, whatever
it holds between brackets. -/
theorem predicates_header (e : ImplEntry) (traitName : Text)
    (h : ∀ bound ∈ e.bounds.dropLast, Nesting.depthOf bound = 0) :
    (e.header traitName).predicates = e.bounds.flatMap Nesting.commaList ∧
      ((∀ bound ∈ e.bounds, (∃ c ∈ bound, Text.isBlank c = false) ∧
          ∀ before after, bound = before ++ ',' :: after → Nesting.depthOf before ≠ 0) →
        (e.header traitName).predicates = e.bounds.map Text.trim) := by
  have hp : (e.header traitName).predicates = e.bounds.flatMap Nesting.commaList :=
    Nesting.commaList_intercalate_eq_flatMap h
  refine ⟨hp, fun hb => ?_⟩
  have hone : ∀ bound ∈ e.bounds, Nesting.commaList bound = [Text.trim bound] := by
    intro bound hm
    obtain ⟨⟨c, hc, hblank⟩, hwhole⟩ := hb bound hm
    exact Nesting.commaList_eq_singleton (Nesting.pieces_eq_singleton_iff.2 hwhole)
      (Text.trim_ne_nil hc hblank)
  rw [hp, List.flatMap_congr hone]
  exact List.map_eq_flatMap.symm

/-- Commas between brackets and behind an arrow stay, and the last text may leave a bracket open. -/
theorem predicates_header_nested :
    let e : ImplEntry := ⟨"F".toList, "X<F>".toList,
      ["F: Fn(A, B) -> Map<C, D>".toList, " F: Clone ".toList, "C: From<[(A, B)".toList]⟩
    (∀ bound ∈ e.bounds.dropLast, Nesting.depthOf bound = 0) ∧
      (e.header "T".toList).predicates =
        ["F: Fn(A, B) -> Map<C, D>".toList, "F: Clone".toList, "C: From<[(A, B)".toList] := by
  intro e
  have hdepth : ∀ bound ∈ e.bounds.dropLast, Nesting.depthOf bound = 0 := by decide
  refine ⟨hdepth, (predicates_header e "T".toList hdepth).2 fun bound hm => ?_⟩
  have hpieces : ∀ bound ∈ e.bounds, Nesting.topLevel.pieces bound = [bound] := by decide
  have hinked : ∀ bound ∈ e.bounds, bound.any (Text.isBlank · == false) = true := by decide
  obtain ⟨c, hc, hblank⟩ := List.any_eq_true.1 (hinked bound hm)
  exact ⟨⟨c, hc, beq_iff_eq.1 hblank⟩, Nesting.pieces_eq_singleton_iff.1 (hpieces bound hm)⟩

end Implementors.ImplEntry
