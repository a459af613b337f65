import Implementors.Mapping
import Implementors.Proofs.Command.Emit
import Implementors.Proofs.Fragment.RoundTrip
import Mathlib

/-!
# Crates that share a root

Manifests of two crates can be emitted below one root one after the other, in either order. The second
one finds each of its scripts as it was, or as the first one left it: then it reads back what was
written there and assigns its own crate, which is another one. So the order in which the two are emitted
shows in nothing but the order of the crates in a script that both of them name.
-/
namespace Implementors

namespace Fragment

/-- No crate has the mark that ends names in its name. -/
def Clean (f : Fragment) : Prop := ∀ crate ∈ f.keys, ¬ assignmentMiddle <:+: crate

instance (f : Fragment) : Decidable f.Clean := inferInstanceAs (Decidable (∀ crate ∈ f.keys, _))

theorem Clean.assign {f : Fragment} (h : f.Clean) {crate : Text}
    (hc : ¬ assignmentMiddle <:+: crate) (items : List Text) : (f.assign crate items).Clean := by
  intro c hm
  rw [keys_assign] at hm
  split at hm
  · exact h c hm
  · rcases List.mem_append.1 hm with hm | hm
    · exact h c hm
    · exact List.mem_singleton.1 hm ▸ hc

end Fragment

namespace Manifest

variable {m n : Manifest} {p : TraitPath} {f : Fragment}

/-- What emitting a manifest makes of the script of a trait. -/
def extend (m : Manifest) (p : TraitPath) (f : Fragment) : Fragment :=
  if p ∈ m.paths then f.assign m.crate (m.markupOf p) else f

theorem extend_of_mem (h : p ∈ m.paths) (f : Fragment) :
    m.extend p f = f.assign m.crate (m.markupOf p) :=
  if_pos h

theorem extend_of_not_mem (h : p ∉ m.paths) (f : Fragment) : m.extend p f = f := if_neg h

theorem clean_extend (hf : f.Clean) (hm : ¬ Fragment.assignmentMiddle <:+: m.crate)
    (p : TraitPath) : (m.extend p f).Clean := by
  rw [extend]
  split
  · exact hf.assign hm _
  · exact hf

theorem get?_extend_of_mem (h : p ∈ m.paths) (f : Fragment) (c : Text) :
    (m.extend p f).get? c = if c = m.crate then some (m.markupOf p) else f.get? c := by
  rw [extend_of_mem h]
  exact Catalog.get?_insert _ _ _ _

/-- Extending a script for two crates, in either order, each crate is assigned the same. -/
theorem get?_extend_extend (hne : m.crate ≠ n.crate) (p : TraitPath) (f : Fragment) (c : Text) :
    (n.extend p (m.extend p f)).get? c = (m.extend p (n.extend p f)).get? c := by
  by_cases hm : p ∈ m.paths
  · by_cases hn : p ∈ n.paths
    · rw [get?_extend_of_mem hn, get?_extend_of_mem hm, get?_extend_of_mem hm,
        get?_extend_of_mem hn]
      by_cases hc : c = m.crate
      · rw [if_pos hc, if_pos hc, if_neg (hc ▸ hne)]
      · rw [if_neg hc, if_neg hc]
    · rw [extend_of_not_mem hn, extend_of_not_mem hn]
  · rw [extend_of_not_mem hm, extend_of_not_mem hm]

/-- A script that not both of two manifests name is extended in the same way in either order. -/
theorem extend_extend_of_not_mem (h : ¬ (p ∈ m.paths ∧ p ∈ n.paths)) (f : Fragment) :
    n.extend p (m.extend p f) = m.extend p (n.extend p f) := by
  rcases not_and_or.1 h with h | h <;> simp only [extend_of_not_mem h]

end Manifest

open Command FileTree

variable {t u v : FileTree} {root : Text} {p : TraitPath} {m n : Manifest}

theorem on_emit_extends (hm : m.check = .ok m) (hs : t.Sound) (hb : t.SolidRoot root)
    (hr : ∀ p ∈ m.paths, t.Ready root p) :
    ∃ u, on (emit m root) t = (.ok (m.paths.map (·.scriptFile root)), u) ∧
      Changes t u root m.paths ∧
      ∀ p ∈ m.paths, ∀ f, t.script? (p.scriptFile root) = some f →
        u.HoldsScript root p (m.extend p f) := by
  obtain ⟨u, hu, he⟩ := on_emit hm hs hb hr
  refine ⟨u, hu, m.map_fst_markup m.paths ▸ he.changes, fun p hp f hf => ?_⟩
  obtain ⟨g, hg, hh⟩ := holdsScript_of_emitsMarkup he hs hb hr hp
  obtain rfl : f = g := Option.some.inj (hf.symm.trans hg)
  rw [Manifest.extend_of_mem hp]
  exact hh

/-- After a manifest was emitted, a script that could be emitted still can, from what was made of it. -/
theorem ready_extend (hs : t.Sound) (hb : t.SolidRoot root) (hr : ∀ p ∈ m.paths, t.Ready root p)
    (hc : Changes t u root m.paths) {f : Fragment} (hp : t.Ready root p)
    (hf : t.script? (p.scriptFile root) = some f) (hclean : (m.extend p f).Clean)
    (hh : p ∈ m.paths → u.HoldsScript root p (m.extend p f)) :
    u.Ready root p ∧ u.script? (p.scriptFile root) = some (m.extend p f) := by
  by_cases hm : p ∈ m.paths
  · have hparse := Fragment.parse_emit_of_clean hclean
    exact ⟨(hh hm).ready hparse, (hh hm).script? hparse⟩
  · rw [Manifest.extend_of_not_mem hm, hc.script?_other hs hb hr hp hm]
    exact ⟨hc.ready hs hb hr hp hm, hf⟩

/-- Two manifests are emitted one after the other if each of them could be emitted first, and what is
read back is clean. -/
theorem on_emit_emit (hm : m.check = .ok m) (hn : n.check = .ok n) (hs : t.Sound)
    (hb : t.SolidRoot root) (hrm : ∀ p ∈ m.paths, t.Ready root p)
    (hrn : ∀ p ∈ n.paths, t.Ready root p)
    (hclean : ∀ p ∈ n.paths, ∀ f, t.script? (p.scriptFile root) = some f → (m.extend p f).Clean) :
    ∃ u v, on (emit m root) t = (.ok (m.paths.map (·.scriptFile root)), u) ∧
      on (emit n root) u = (.ok (n.paths.map (·.scriptFile root)), v) ∧
      Changes t v root (m.paths ++ n.paths) ∧
      ∀ p, p ∈ m.paths ∨ p ∈ n.paths → ∀ f, t.script? (p.scriptFile root) = some f →
        v.HoldsScript root p (n.extend p (m.extend p f)) := by
  obtain ⟨u, hu, hc, hh⟩ := on_emit_extends hm hs hb hrm
  have hbu := hc.solidRoot hs hb hrm
  have hnext : ∀ p ∈ n.paths, ∀ f, t.script? (p.scriptFile root) = some f →
      u.Ready root p ∧ u.script? (p.scriptFile root) = some (m.extend p f) := fun p hp f hf =>
    ready_extend hs hb hrm hc (hrn p hp) hf (hclean p hp f hf) fun hpm => hh p hpm f hf
  have hru : ∀ p ∈ n.paths, u.Ready root p := by
    intro p hp
    obtain ⟨f, hf⟩ := (hrn p hp).script
    exact (hnext p hp f hf).1
  obtain ⟨v, hv, hd, hg⟩ := on_emit_extends hn hc.sound hbu hru
  refine ⟨u, v, hu, hv, hc.trans hd, fun p hp f hf => ?_⟩
  by_cases hpn : p ∈ n.paths
  · exact hg p hpn _ (hnext p hpn f hf).2
  · rw [Manifest.extend_of_not_mem hpn]
    exact hd.holdsScript hc.sound hbu hru (hh p (hp.resolve_right hpn) f hf) hpn

/-- Two manifests of different crates, each of which can be emitted below a root, can be emitted there
one after the other, in either order, if the mark that ends names is in no name. What the two orders
leave differs at most in the scripts that both manifests name; and there it is only the crates that are
ordered differently: each of the two crates is assigned the markup of its own impls, and every other one
what it was assigned before. -/
theorem emit_two_crates {source other : Text} (hm : Manifest.parse source = .ok m)
    (hn : Manifest.parse other = .ok n) (hne : m.crate ≠ n.crate) (hs : t.Sound)
    (hb : t.SolidRoot root) (hum : ∃ files u, on (emit m root) t = (.ok files, u))
    (hun : ∃ files u, on (emit n root) t = (.ok files, u))
    (hcm : ¬ Fragment.assignmentMiddle <:+: m.crate)
    (hcn : ¬ Fragment.assignmentMiddle <:+: n.crate)
    (hcf : ∀ p, p ∈ m.paths ∨ p ∈ n.paths → ∀ f, t.script? (p.scriptFile root) = some f → f.Clean) :
    ∃ u mn v nm,
      (on (emit m root) t = (.ok (m.paths.map (·.scriptFile root)), u) ∧
        on (emit n root) u = (.ok (n.paths.map (·.scriptFile root)), mn)) ∧
      (on (emit n root) t = (.ok (n.paths.map (·.scriptFile root)), v) ∧
        on (emit m root) v = (.ok (m.paths.map (·.scriptFile root)), nm)) ∧
      (∀ place, (∀ p ∈ m.paths, p ∈ n.paths → place ≠ p.place t root) →
        mn.node? place = nm.node? place) ∧
      (∀ p, Xor (p ∈ m.paths) (p ∈ n.paths) → ∃ text,
        mn.read (p.scriptFile root) = .ok text ∧ nm.read (p.scriptFile root) = .ok text) ∧
      ∀ p ∈ m.paths, p ∈ n.paths → ∃ f g h,
        t.script? (p.scriptFile root) = some f ∧
        (∃ text, mn.read (p.scriptFile root) = .ok text ∧ Fragment.parse text = .ok g) ∧
        (∃ text, nm.read (p.scriptFile root) = .ok text ∧ Fragment.parse text = .ok h) ∧
        g.Agree h ∧
        ∀ c, g.get? c =
          if c = m.crate then some (m.markupOf p)
          else if c = n.crate then some (n.markupOf p) else f.get? c := by
  have hmcheck := Manifest.check_of_parse hm
  have hncheck := Manifest.check_of_parse hn
  obtain ⟨_, _, hum⟩ := hum
  obtain ⟨_, _, hun⟩ := hun
  have hrm := ready_of_on_emit hmcheck hs hb hum
  have hrn := ready_of_on_emit hncheck hs hb hun
  have hscript : ∀ p, p ∈ m.paths ∨ p ∈ n.paths → ∃ f, t.script? (p.scriptFile root) = some f :=
    fun p hp => (hp.elim (hrm p) (hrn p)).script
  obtain ⟨u, mn, hu, humn, hcmn, hmn⟩ := on_emit_emit hmcheck hncheck hs hb hrm hrn
    fun p hp f hf => Manifest.clean_extend (hcf p (.inr hp) f hf) hcm p
  obtain ⟨v, nm, hv, hvnm, hcnm, hnm⟩ := on_emit_emit hncheck hmcheck hs hb hrn hrm
    fun p hp f hf => Manifest.clean_extend (hcf p (.inl hp) f hf) hcn p
  refine ⟨u, mn, v, nm, ⟨hu, humn⟩, ⟨hv, hvnm⟩, fun place hplace => ?_, fun p hp => ?_,
    fun p hpm hpn => ?_⟩
  · by_cases h : ∀ p ∈ m.paths ++ n.paths, place ≠ p.place t root
    · exact hcmn.node?_eq hcnm (fun p => by rw [List.mem_append, List.mem_append, or_comm]) h
    · push Not at h
      obtain ⟨p, hp, rfl⟩ := h
      rw [List.mem_append] at hp
      obtain ⟨f, hf⟩ := hscript p hp
      have hone : ¬ (p ∈ m.paths ∧ p ∈ n.paths) := fun hboth => hplace p hboth.1 hboth.2 rfl
      have hl := (hmn p hp f hf).text
      have hr := (hnm p hp.symm f hf).text
      rw [place_congr hcmn.workingDirectory] at hl
      rw [place_congr hcnm.workingDirectory] at hr
      rw [hl, hr, Manifest.extend_extend_of_not_mem hone]
  · obtain ⟨heither, hone⟩ := (xor_iff_or_and_not_and _ _).1 hp
    obtain ⟨f, hf⟩ := hscript p heither
    have hr := (hnm p heither.symm f hf).read
    rw [← Manifest.extend_extend_of_not_mem hone] at hr
    exact ⟨_, (hmn p heither f hf).read, hr⟩
  · obtain ⟨f, hf⟩ := (hrm p hpm).script
    have hclean := hcf p (.inl hpm) f hf
    refine ⟨f, _, _, hf, ⟨_, (hmn p (.inl hpm) f hf).read, Fragment.parse_emit_of_clean ?_⟩,
      ⟨_, (hnm p (.inr hpm) f hf).read, Fragment.parse_emit_of_clean ?_⟩,
      Catalog.agree_of_get?_eq (Manifest.get?_extend_extend hne p f), fun c => ?_⟩
    · exact Manifest.clean_extend (Manifest.clean_extend hclean hcm p) hcn p
    · exact Manifest.clean_extend (Manifest.clean_extend hclean hcn p) hcm p
    · rw [Manifest.get?_extend_extend hne, Manifest.get?_extend_of_mem hpm,
        Manifest.get?_extend_of_mem hpn]

set_option maxRecDepth 20000 in
/-- A script that both manifests name and that lists a third crate, and one that is named by the first
manifest only. -/
theorem emit_two_crates_beside_third :
    let source := ("crate = \"c\"\n\n[[trait]]\npath = \"a::T\"\nimpl = [\x7btype = \"X\"\x7d]\n" ++
      "\n[[trait]]\npath = \"a::S\"\n").toList
    let other :=
      "crate = \"d\"\n\n[[trait]]\npath = \"a::T\"\nimpl = [\x7btype = \"Y\"\x7d]\n".toList
    let m : Manifest :=
      ⟨"c".toList, [⟨"a::T".toList, [⟨[], "X".toList, []⟩]⟩, ⟨"a::S".toList, []⟩], Catalog.empty⟩
    let n : Manifest := ⟨"d".toList, [⟨"a::T".toList, [⟨[], "Y".toList, []⟩]⟩], Catalog.empty⟩
    let third : Fragment := ⟨[("b".toList, ["impl T for Z".toList])], by decide⟩
    let root := "out".toList
    let shared := "out/implementors/a/trait.T.js".toList
    let own := "out/implementors/a/trait.S.js".toList
    let t : FileTree :=
      ⟨⟨[([root], .directory), ([root, "implementors".toList], .directory),
        ([root, "implementors".toList, "a".toList], .directory),
        ([root, "implementors".toList, "a".toList, "trait.T.js".toList], .text third.emit)],
        by decide⟩, []⟩
    (Manifest.parse source = .ok m ∧ Manifest.parse other = .ok n ∧ m.crate ≠ n.crate ∧ t.Sound ∧
      t.SolidRoot root ∧ (∃ files u, on (emit m root) t = (.ok files, u)) ∧
      (∃ files u, on (emit n root) t = (.ok files, u)) ∧
      ¬ Fragment.assignmentMiddle <:+: m.crate ∧ ¬ Fragment.assignmentMiddle <:+: n.crate ∧
      ∀ p, p ∈ m.paths ∨ p ∈ n.paths → ∀ f, t.script? (p.scriptFile root) = some f → f.Clean) ∧
    ∃ u mn v nm,
      (on (emit m root) t = (.ok [shared, own], u) ∧ on (emit n root) u = (.ok [shared], mn)) ∧
      (on (emit n root) t = (.ok [shared], v) ∧ on (emit m root) v = (.ok [shared, own], nm)) ∧
      (∃ text, mn.read own = .ok text ∧ nm.read own = .ok text) ∧
      ∃ g h, (∃ text, mn.read shared = .ok text ∧ Fragment.parse text = .ok g) ∧
        (∃ text, nm.read shared = .ok text ∧ Fragment.parse text = .ok h) ∧ g.Agree h ∧
        g.get? "b".toList = some ["impl T for Z".toList] ∧
        g.get? "c".toList = some ["impl T for X".toList] ∧
        g.get? "d".toList = some ["impl T for Y".toList] := by
  intro source other m n third root shared own t
  let p : TraitPath := ⟨["a".toList], "T".toList, by decide, by decide⟩
  let q : TraitPath := ⟨["a".toList], "S".toList, by decide, by decide⟩
  have hm : Manifest.parse source = .ok m := by
    unfold source m
    cbv
  have hn : Manifest.parse other = .ok n := by
    unfold other n
    cbv
  have hs : t.Sound := by decide
  have hb : t.SolidRoot root := by decide
  have hmp : m.paths = [p, q] := by decide
  have hnp : n.paths = [p] := by decide
  have hpf : p.scriptFile root = shared := by decide
  have hqf : q.scriptFile root = own := by decide
  have hshared : t.script? shared = some third := by decide +kernel
  have hown : t.script? own = some Catalog.empty := by decide +kernel
  have hp : t.Ready root p := ⟨by decide, by decide, third, hshared⟩
  have hq : t.Ready root q := ⟨by decide, by decide, Catalog.empty, hown⟩
  have hrm : ∀ p ∈ m.paths, t.Ready root p := by
    rw [hmp]
    exact List.forall_mem_cons.2 ⟨hp, List.forall_mem_singleton.2 hq⟩
  have hrn : ∀ p ∈ n.paths, t.Ready root p := by
    rw [hnp]
    exact List.forall_mem_singleton.2 hp
  have hclean : ∀ p, p ∈ m.paths ∨ p ∈ n.paths → ∀ f, t.script? (p.scriptFile root) = some f →
      f.Clean := by
    rw [hmp, hnp]
    intro r hr f hf
    simp only [List.mem_cons, List.not_mem_nil, or_false] at hr
    rcases hr.elim id .inl with rfl | rfl
    · rw [hpf, hshared] at hf
      exact Option.some.inj hf ▸ by decide
    · rw [hqf, hown] at hf
      exact Option.some.inj hf ▸ by decide
  obtain ⟨_, hum, -⟩ := on_emit (Manifest.check_of_parse hm) hs hb hrm
  obtain ⟨_, hun, -⟩ := on_emit (Manifest.check_of_parse hn) hs hb hrn
  refine ⟨⟨hm, hn, by decide, hs, hb, ⟨_, _, hum⟩, ⟨_, _, hun⟩, by decide, by decide, hclean⟩, ?_⟩
  obtain ⟨u, mn, v, nm, ⟨hu, hmn⟩, ⟨hv, hnm⟩, -, hone, hboth⟩ := emit_two_crates hm hn (by decide)
    hs hb ⟨_, _, hum⟩ ⟨_, _, hun⟩ (by decide) (by decide) hclean
  have hread := hone q (.inl ⟨by decide, by decide⟩)
  obtain ⟨f, g, h, hf, hg, hh, hagree, hget⟩ := hboth p (by decide) (by decide)
  have hmfiles : m.paths.map (·.scriptFile root) = [shared, own] := by decide
  have hnfiles : n.paths.map (·.scriptFile root) = [shared] := by decide
  rw [hmfiles] at hu hnm
  rw [hnfiles] at hv hmn
  rw [hqf] at hread
  rw [hpf] at hf hg hh
  obtain rfl : third = f := Option.some.inj (hshared.symm.trans hf)
  refine ⟨u, mn, v, nm, ⟨hu, hmn⟩, ⟨hv, hnm⟩, hread, g, h, hg, hh, hagree, ?_, ?_, ?_⟩
  · rw [hget]
    decide
  · rw [hget]
    decide
  · rw [hget]
    decide

set_option maxRecDepth 20000 in
/-- Below a root that steps back out of a missing directory, it is the first of two manifests to be
emitted that makes that directory. What it overwrites behind it, the second one would have extended. -/
theorem emit_order_matters_behind_step_back :
    let source := "crate = \"a\"\n\n[[trait]]\npath = \"x::S\"\n".toList
    let other := "crate = \"b\"\n\n[[trait]]\npath = \"x::T\"\n".toList
    let m : Manifest := ⟨"a".toList, [⟨"x::S".toList, []⟩], Catalog.empty⟩
    let n : Manifest := ⟨"b".toList, [⟨"x::T".toList, []⟩], Catalog.empty⟩
    let p : TraitPath := ⟨["x".toList], "S".toList, by decide, by decide⟩
    let q : TraitPath := ⟨["x".toList], "T".toList, by decide, by decide⟩
    let back := "new/..".toList
    let script := "implementors/x/trait.T.js".toList
    let third : Fragment := ⟨[("z".toList, ["impl T for Y".toList])], by decide⟩
    let t : FileTree :=
      ⟨⟨[(["implementors".toList], .directory), (["implementors".toList, "x".toList], .directory),
        (["implementors".toList, "x".toList, "trait.T.js".toList], .text third.emit)],
        by decide⟩, []⟩
    let mn := (on (emit n back) (on (emit m back) t).2)
    let nm := (on (emit m back) (on (emit n back) t).2)
    (Manifest.parse source = .ok m ∧ Manifest.parse other = .ok n ∧ m.crate ≠ n.crate ∧
      m.paths = [p] ∧ n.paths = [q] ∧ t.Sound ∧
      (on (emit m back) t).1 = .ok [p.scriptFile back] ∧
      (on (emit n back) t).1 = .ok [q.scriptFile back] ∧
      ¬ Fragment.assignmentMiddle <:+: m.crate ∧ ¬ Fragment.assignmentMiddle <:+: n.crate ∧
      t.read script = .ok third.emit ∧ third.Clean) ∧
    mn.1 = .ok [q.scriptFile back] ∧ nm.1 = .ok [p.scriptFile back] ∧
    mn.2.read (q.scriptFile back) =
      .ok (Fragment.emit ⟨[("z".toList, ["impl T for Y".toList]), ("b".toList, [])], by decide⟩) ∧
    nm.2.read (q.scriptFile back) = .ok (Fragment.emit ⟨[("b".toList, [])], by decide⟩) := by
  intro source other m n p q back script third t mn nm
  have hm : Manifest.parse source = .ok m := by
    unfold source m
    cbv
  have hn : Manifest.parse other = .ok n := by
    unfold other n
    cbv
  refine ⟨⟨hm, hn, by decide, by decide, by decide, by decide, by decide +kernel,
    by decide +kernel, by decide, by decide, by decide +kernel, by decide⟩, by decide +kernel,
    by decide +kernel, by decide +kernel, by decide +kernel⟩

end Implementors
