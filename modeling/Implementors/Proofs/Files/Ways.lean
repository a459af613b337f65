import Implementors.Files.Tree
import Implementors.Proofs.Catalog
import Mathlib

/-!
# Ways through a file tree

A way is the list of places that names lead past, from a directory on. Following names leads to the
end of their way if directories stand all along it, and making directories puts one wherever nothing
stands. A way that steps back only out of directories that are there cannot come back from where
nothing stands: what is missing stays missing to its end.
-/
namespace Implementors.FileTree

/-- A tree as file systems have it: whatever stands somewhere stands in a directory, and so does
whoever works in it. -/
structure Sound (t : FileTree) : Prop where
  workingDirectory : t.node? t.workingDirectory = some .directory
  parent : ∀ place name node, t.node? (place ++ [name]) = some node →
    t.node? place = some .directory

/-- The place that a name leads to. -/
def step (here : List Text) (name : Text) : List Text :=
  if name = [] ∨ name = ['.'] then here
  else if name = ['.', '.'] then here.dropLast
  else here ++ [name]

/-- The place at the end of the way along some names. -/
def walk (here names : List Text) : List Text := names.foldl step here

/-- The places that names lead past, the last of them included. -/
def way (here : List Text) : List Text → List (List Text)
  | [] => []
  | name :: rest => step here name :: way (step here name) rest

/-- A name that leads on, neither empty nor made of dots that stand for a place. -/
def IsProper (name : Text) : Prop := name ≠ [] ∧ name ≠ ['.'] ∧ name ≠ ['.', '.']

instance (name : Text) : Decidable (IsProper name) := inferInstanceAs (Decidable (_ ∧ _ ∧ _))

/-- Wherever something stands along a way, it is a directory. -/
def NoFileOn (t : FileTree) (here names : List Text) : Prop :=
  ∀ place ∈ way here names, ∀ node, t.node? place = some node → node = .directory

instance (t : FileTree) (here names : List Text) : Decidable (t.NoFileOn here names) :=
  decidable_of_iff
    (∀ place ∈ way here names, t.node? place = none ∨ t.node? place = some .directory)
    (forall₂_congr fun place _ => by cases t.node? place <;> simp)

/-- Names step back only out of directories that are there. -/
def Solid (t : FileTree) (here names : List Text) : Prop :=
  ∀ before after, names = before ++ ['.', '.'] :: after →
    t.node? (walk here before) = some .directory

/-- The names are no longer than a file system allows. -/
def NamesFit (names : List Text) : Prop := ∀ name ∈ names, byteLength name ≤ maxName

instance (names : List Text) : Decidable (NamesFit names) :=
  inferInstanceAs (Decidable (∀ name ∈ names, _))

@[simp] theorem node?_nil (t : FileTree) : t.node? [] = some .directory := rfl

theorem node?_put (t : FileTree) {place : List Text} (h : place ≠ []) (node : FileNode)
    (other : List Text) :
    (t.put place node).node? other = if other = place then some node else t.node? other := by
  cases other with
  | nil => rw [node?_nil, if_neg (Ne.symm h), node?_nil]
  | cons name rest => exact Catalog.get?_insert t.nodes place node (name :: rest)

theorem step_of_isProper {name : Text} (h : IsProper name) (here : List Text) :
    step here name = here ++ [name] := by
  rw [step, if_neg (not_or.2 ⟨h.1, h.2.1⟩), if_neg h.2.2]

theorem step_of_isEmpty_or_dot {name : Text} (h : name = [] ∨ name = ['.']) (here : List Text) :
    step here name = here :=
  if_pos h

theorem step_back (here : List Text) : step here ['.', '.'] = here.dropLast := by
  rw [step, if_neg (by decide), if_pos rfl]

/-- A name leads nowhere, back, or on. -/
theorem name_cases (name : Text) :
    (name = [] ∨ name = ['.']) ∨ name = ['.', '.'] ∨ IsProper name := by
  by_cases h₁ : name = [] ∨ name = ['.']
  · exact .inl h₁
  by_cases h₂ : name = ['.', '.']
  · exact .inr (.inl h₂)
  obtain ⟨hn, hd⟩ := not_or.1 h₁
  exact .inr (.inr ⟨hn, hd, h₂⟩)

@[simp] theorem walk_nil (here : List Text) : walk here [] = here := rfl

@[simp] theorem walk_cons (here : List Text) (name : Text) (names : List Text) :
    walk here (name :: names) = walk (step here name) names :=
  rfl

theorem walk_append (here names more : List Text) :
    walk here (names ++ more) = walk (walk here names) more :=
  List.foldl_append

theorem way_append (here names more : List Text) :
    way here (names ++ more) = way here names ++ way (walk here names) more := by
  induction names generalizing here with
  | nil => rfl
  | cons name names ih => simp [way, ih]

theorem walk_of_isProper {names : List Text} (h : ∀ name ∈ names, IsProper name)
    (here : List Text) : walk here names = here ++ names := by
  induction names generalizing here with
  | nil => rw [List.append_nil, walk_nil]
  | cons name names ih =>
    rw [walk_cons, step_of_isProper (h name List.mem_cons_self),
      ih fun n hn => h n (List.mem_cons_of_mem _ hn), List.append_assoc, List.singleton_append]

/-- Proper names lead past the places below the first one, one after another. -/
theorem prefix_of_mem_way {names : List Text} (h : ∀ name ∈ names, IsProper name)
    {here place : List Text} (hp : place ∈ way here names) :
    ∃ front, front <+: names ∧ front ≠ [] ∧ place = here ++ front := by
  induction names generalizing here with
  | nil => cases hp
  | cons name names ih =>
    rw [way, step_of_isProper (h name List.mem_cons_self)] at hp
    rcases List.mem_cons.1 hp with rfl | hp
    · exact ⟨[name], ⟨names, rfl⟩, List.cons_ne_nil _ _, rfl⟩
    · obtain ⟨front, hf, -, rfl⟩ := ih (fun n hn => h n (List.mem_cons_of_mem _ hn)) hp
      exact ⟨name :: front, List.cons_prefix_cons.2 ⟨rfl, hf⟩, List.cons_ne_nil _ _, by simp⟩

/-- The places on a way are the ends of the ways along the first names. -/
theorem walk_of_mem_way {here names place : List Text} (h : place ∈ way here names) :
    ∃ before after, names = before ++ after ∧ place = walk here before := by
  induction names generalizing here with
  | nil => cases h
  | cons name names ih =>
    rcases List.mem_cons.1 h with rfl | h
    · exact ⟨[name], names, rfl, rfl⟩
    · obtain ⟨before, after, rfl, rfl⟩ := ih h
      exact ⟨name :: before, after, rfl, rfl⟩

theorem solid_iff {t : FileTree} {here names : List Text} :
    t.Solid here names ↔ ∀ i ∈ List.range names.length, names[i]? = some ['.', '.'] →
      t.node? (walk here (names.take i)) = some .directory := by
  constructor
  · intro h i _ hi
    obtain ⟨hlt, he⟩ := List.getElem?_eq_some_iff.1 hi
    refine h (names.take i) (names.drop (i + 1)) ?_
    rw [← he, List.cons_getElem_drop_succ, List.take_append_drop]
  · rintro h before after rfl
    simpa using h before.length (by simp) (by simp)

instance (t : FileTree) (here names : List Text) : Decidable (t.Solid here names) :=
  decidable_of_iff _ solid_iff.symm

theorem Solid.tail {t : FileTree} {here : List Text} {name : Text} {names : List Text}
    (h : t.Solid here (name :: names)) : t.Solid (step here name) names :=
  fun before after he => h (name :: before) after (by rw [he, List.cons_append])

/-- Proper names do not step back. -/
theorem Solid.append {t : FileTree} {here names more : List Text} (h : t.Solid here names)
    (hm : ∀ name ∈ more, IsProper name) : t.Solid here (names ++ more) := by
  intro before after he
  rcases List.append_eq_append_iff.1 he with ⟨rest, rfl, hr⟩ | ⟨rest, rfl, hr⟩
  · have hback : ['.', '.'] ∈ more := hr ▸ List.mem_append_right _ List.mem_cons_self
    exact absurd rfl (hm _ hback).2.2
  · cases rest with
    | nil =>
      have hback : ['.', '.'] ∈ more := by
        rw [List.nil_append] at hr
        exact hr ▸ List.mem_cons_self
      exact absurd rfl (hm _ hback).2.2
    | cons name rest =>
      rw [List.cons_append, List.cons.injEq] at hr
      exact h before rest (by rw [hr.1])

theorem node?_concat (t : FileTree) (place : List Text) (name : Text) :
    t.node? (place ++ [name]) = t.nodes.get? (place ++ [name]) :=
  if_neg (by simp)

/-- A tree is sound if whatever is listed in it stands in a directory. -/
theorem sound_iff {t : FileTree} :
    t.Sound ↔ t.node? t.workingDirectory = some .directory ∧
      ∀ e ∈ t.nodes.entries, t.node? e.1.dropLast = some .directory := by
  refine ⟨fun hs => ⟨hs.workingDirectory, fun e he => ?_⟩, fun h => ⟨h.1, ?_⟩⟩
  · obtain ⟨place, node⟩ := e
    rcases List.eq_nil_or_concat' place with rfl | ⟨front, name, rfl⟩
    · rfl
    · rw [List.dropLast_concat]
      exact hs.parent front name node ((t.node?_concat front name).trans (t.nodes.get?_of_mem he))
  · intro place name node hn
    rw [node?_concat] at hn
    have hd := h.2 _ (Catalog.mem_of_find? hn)
    rwa [List.dropLast_concat] at hd

instance (t : FileTree) : Decidable t.Sound := decidable_of_iff _ sound_iff.symm

namespace Sound

variable {t : FileTree}

/-- Above whatever stands somewhere are directories. -/
theorem above (hs : t.Sound) {place below : List Text} {node : FileNode} (hb : below ≠ [])
    (h : t.node? (place ++ below) = some node) : t.node? place = some .directory := by
  induction below using List.reverseRecOn generalizing node with
  | nil => exact absurd rfl hb
  | append_singleton below name ih =>
    rw [← List.append_assoc] at h
    have hp := hs.parent _ _ _ h
    by_cases hn : below = []
    · rwa [hn, List.append_nil] at hp
    · exact ih hn hp

/-- Below where nothing stands, nothing stands. -/
theorem below (hs : t.Sound) {place : List Text} (h : t.node? place = none) (rest : List Text) :
    t.node? (place ++ rest) = none := by
  cases hn : t.node? (place ++ rest) with
  | none => rfl
  | some node =>
    by_cases hr : rest = []
    · rw [hr, List.append_nil, h] at hn
      cases hn
    · rw [hs.above hr hn] at h
      cases h

theorem back (hs : t.Sound) {here : List Text} (h : t.node? here = some .directory) :
    t.node? here.dropLast = some .directory := by
  rcases List.eq_nil_or_concat' here with rfl | ⟨front, name, rfl⟩
  · exact h
  · rw [List.dropLast_concat]
    exact hs.parent _ _ _ h

/-- Putting a node into a directory keeps a tree sound, if no directory goes lost. -/
theorem put (hs : t.Sound) {place : List Text} {name : Text} {node : FileNode}
    (hp : t.node? place = some .directory)
    (hn : node = .directory ∨ t.node? (place ++ [name]) ≠ some .directory) :
    (t.put (place ++ [name]) node).Sound := by
  have hne : place ++ [name] ≠ [] := by simp
  have hkeep : ∀ q, t.node? q = some .directory →
      (t.put (place ++ [name]) node).node? q = some .directory := by
    intro q hq
    rw [node?_put t hne]
    split
    · next he =>
      rcases hn with rfl | hn
      · rfl
      · exact absurd (he ▸ hq) hn
    · exact hq
  refine ⟨hkeep _ hs.workingDirectory, fun q n old h => hkeep q ?_⟩
  rw [node?_put t hne] at h
  split at h
  · next he =>
    obtain ⟨rfl, -⟩ := List.append_inj' he rfl
    exact hp
  · exact hs.parent q n old h

/-- From where nothing stands, solid names lead on to where nothing stands. -/
theorem missing_on (hs : t.Sound) {here names : List Text} (h : t.node? here = none)
    (hb : t.Solid here names) : here <+: walk here names := by
  induction names generalizing here with
  | nil => exact List.prefix_refl here
  | cons name names ih =>
    rcases name_cases name with hn | rfl | hn
    · have htail := hb.tail
      rw [walk_cons, step_of_isEmpty_or_dot hn] at *
      exact ih h htail
    · have hd := hb [] names rfl
      rw [walk_nil, h] at hd
      cases hd
    · have htail := hb.tail
      rw [walk_cons, step_of_isProper hn] at *
      exact (List.prefix_append here [name]).trans (ih (hs.below h [name]) htail)

/-- Where nothing stands on the way of solid names, the rest of the way is below. -/
theorem prefix_walk (hs : t.Sound) {here names place : List Text} (hb : t.Solid here names)
    (hp : place ∈ way here names) (h : t.node? place = none) : place <+: walk here names := by
  induction names generalizing here with
  | nil => cases hp
  | cons name names ih =>
    rw [way] at hp
    rcases List.mem_cons.1 hp with rfl | hp
    · exact hs.missing_on h hb.tail
    · exact ih hb.tail hp

end Sound

theorem follow_append (t : FileTree) (here names more : List Text) :
    t.follow here (names ++ more) = t.follow here names >>= fun there => t.follow there more := by
  induction names generalizing here with
  | nil => rfl
  | cons name names ih =>
    rw [List.cons_append, follow, follow]
    cases t.node? here with
    | none => rfl
    | some node =>
      cases node with
      | directory =>
        simp only
        split
        · exact ih here
        split
        · exact ih here.dropLast
        split
        · rfl
        · exact ih (here ++ [name])
      | text contents => rfl
      | binary => rfl

theorem follow_cons {t : FileTree} {here : List Text} {name : Text}
    (h : t.node? here = some .directory) (hn : byteLength name ≤ maxName) (rest : List Text) :
    t.follow here (name :: rest) = t.follow (step here name) rest := by
  rw [follow, h]
  simp only [if_neg (Nat.not_lt.2 hn), step]
  split
  · rfl
  · split <;> rfl

theorem follow_of_missing {t : FileTree} {here names : List Text} (h : t.node? here = none)
    (hn : names ≠ []) : t.follow here names = .error .notFound := by
  obtain ⟨name, rest, rfl⟩ := List.exists_cons_of_ne_nil hn
  rw [follow, h]

/-- Where directories stand all along the way, names lead to its end. -/
theorem follow_of_directories {t : FileTree} {here names : List Text}
    (h : t.node? here = some .directory)
    (hd : ∀ place ∈ way here names, t.node? place = some .directory) (hn : NamesFit names) :
    t.follow here names = .ok (walk here names) := by
  induction names generalizing here with
  | nil => rfl
  | cons name names ih =>
    rw [follow_cons h (hn name List.mem_cons_self)]
    exact ih (hd _ List.mem_cons_self) (fun p hp => hd p (List.mem_cons_of_mem _ hp))
      fun n hm => hn n (List.mem_cons_of_mem _ hm)

theorem node?_walk_of_directories {t : FileTree} {here names : List Text}
    (h : t.node? here = some .directory)
    (hd : ∀ place ∈ way here names, t.node? place = some .directory) :
    t.node? (walk here names) = some .directory := by
  induction names generalizing here with
  | nil => exact h
  | cons name names ih =>
    exact ih (hd _ List.mem_cons_self) fun p hp => hd p (List.mem_cons_of_mem _ hp)

/-- A name is followed only in a directory, and only if it fits. -/
theorem of_follow_cons_eq_ok {t : FileTree} {here rest place : List Text} {name : Text}
    (h : t.follow here (name :: rest) = .ok place) :
    t.node? here = some .directory ∧ byteLength name ≤ maxName := by
  rw [follow] at h
  cases hd : t.node? here with
  | none =>
    rw [hd] at h
    cases h
  | some node =>
    rw [hd] at h
    cases node with
    | text contents => cases h
    | binary => cases h
    | directory =>
      refine ⟨rfl, ?_⟩
      rcases name_cases name with (rfl | rfl) | rfl | hp
      · decide
      · decide
      · decide
      · simp only [if_neg (not_or.2 ⟨hp.1, hp.2.1⟩), if_neg hp.2.2] at h
        split at h
        · cases h
        · next hle => exact Nat.not_lt.1 hle

/-- Whoever got somewhere came through directories, by names that fit. -/
theorem of_follow_eq_ok {t : FileTree} {here names place : List Text}
    (h : t.follow here names = .ok place) :
    place = walk here names ∧ NamesFit names ∧
      ∀ before name after, names = before ++ name :: after →
        t.node? (walk here before) = some .directory := by
  induction names generalizing here with
  | nil =>
    cases h
    exact ⟨rfl, nofun, fun before name after he => by cases before <;> cases he⟩
  | cons name names ih =>
    obtain ⟨hd, hn⟩ := of_follow_cons_eq_ok h
    rw [follow_cons hd hn] at h
    obtain ⟨rfl, hf, hall⟩ := ih h
    refine ⟨rfl, List.forall_mem_cons.2 ⟨hn, hf⟩, fun before n after he => ?_⟩
    cases before with
    | nil => exact hd
    | cons b before =>
      cases he
      exact hall before n after rfl

/-- Along a way without files, either directories stand all along it, or nothing stands at its end and
nothing is found there. -/
theorem directories_or_missing {t : FileTree} (hs : t.Sound) {here names : List Text}
    (h : t.node? here = some .directory) (hf : t.NoFileOn here names)
    (hb : t.Solid here names) (hn : NamesFit names) :
    (∀ place ∈ way here names, t.node? place = some .directory) ∨
      t.node? (walk here names) = none ∧
        ∀ last, t.follow here (names ++ [last]) = .error .notFound := by
  induction names generalizing here with
  | nil => exact .inl nofun
  | cons name names ih =>
    have hfit := hn name List.mem_cons_self
    cases hm : t.node? (step here name) with
    | none =>
      obtain ⟨rest, hr⟩ := hs.missing_on hm hb.tail
      refine .inr ⟨?_, fun last => ?_⟩
      · rw [walk_cons, ← hr]
        exact hs.below hm rest
      · rw [List.cons_append, follow_cons h hfit]
        exact follow_of_missing hm (by simp)
    | some node =>
      obtain rfl := hf _ List.mem_cons_self node hm
      rcases ih hm (fun p hp => hf p (List.mem_cons_of_mem _ hp)) hb.tail
        (fun n hm => hn n (List.mem_cons_of_mem _ hm)) with hd | ⟨he, hl⟩
      · exact .inl (List.forall_mem_cons.2 ⟨hm, hd⟩)
      · refine .inr ⟨he, fun last => ?_⟩
        rw [List.cons_append, follow_cons h hfit]
        exact hl last

/-- The second tree is the first one with directories where nothing stood before. -/
structure Adds (t u : FileTree) (places : List (List Text)) : Prop where
  sound : u.Sound
  workingDirectory : u.workingDirectory = t.workingDirectory
  node? : ∀ place, u.node? place =
    if place ∈ places ∧ t.node? place = none then some .directory else t.node? place

theorem createFrom_cons {t : FileTree} {here : List Text} {name : Text}
    (h : t.node? (step here name) = some .directory) (hn : byteLength name ≤ maxName)
    (rest : List Text) :
    t.createFrom here (name :: rest) = t.createFrom (step here name) rest := by
  rw [createFrom]
  rcases name_cases name with he | rfl | hp
  · rw [if_pos he, step_of_isEmpty_or_dot he]
  · rw [if_neg (by decide), if_pos rfl, step_back]
  · rw [step_of_isProper hp] at h ⊢
    rw [if_neg (not_or.2 ⟨hp.1, hp.2.1⟩), if_neg hp.2.2, if_neg (Nat.not_lt.2 hn), h]

theorem createFrom_of_directories {t : FileTree} {here names : List Text}
    (hd : ∀ place ∈ way here names, t.node? place = some .directory) (hn : NamesFit names) :
    t.createFrom here names = (t, true) := by
  induction names generalizing here with
  | nil => rfl
  | cons name names ih =>
    rw [createFrom_cons (hd _ List.mem_cons_self) (hn name List.mem_cons_self)]
    exact ih (fun p hp => hd p (List.mem_cons_of_mem _ hp))
      fun n hm => hn n (List.mem_cons_of_mem _ hm)

/-- Where no file stands in the way, directories can be made all along it. -/
theorem createFrom_adds {t : FileTree} (hs : t.Sound) {here names : List Text}
    (h : t.node? here = some .directory) (hf : t.NoFileOn here names) (hn : NamesFit names) :
    ∃ u, t.createFrom here names = (u, true) ∧ Adds t u (way here names) := by
  induction names generalizing t here with
  | nil => exact ⟨t, rfl, hs, rfl, fun place => by simp [way]⟩
  | cons name names ih =>
    have hfit := hn name List.mem_cons_self
    have hrest : NamesFit names := fun n hm => hn n (List.mem_cons_of_mem _ hm)
    cases hm : t.node? (step here name) with
    | some node =>
      obtain rfl := hf _ List.mem_cons_self node hm
      obtain ⟨u, hu, ha⟩ := ih hs hm (fun p hp => hf p (List.mem_cons_of_mem _ hp)) hrest
      refine ⟨u, by rw [createFrom_cons hm hfit, hu], ha.sound, ha.workingDirectory, ?_⟩
      intro place
      rw [ha.node? place, way]
      by_cases he : place = step here name
      · rw [he, hm]
        simp
      · simp only [List.mem_cons, he, false_or]
    | none =>
      -- Nothing stands there, so the name leads on, and the place is new.
      have hp : IsProper name := by
        rcases name_cases name with he | rfl | hp
        · rw [step_of_isEmpty_or_dot he, h] at hm
          cases hm
        · rw [step_back, hs.back h] at hm
          cases hm
        · exact hp
      rw [step_of_isProper hp] at hm
      have hne : here ++ [name] ≠ [] := by simp
      have hput := node?_put t hne .directory
      obtain ⟨u, hu, ha⟩ := ih (hs.put h (.inl rfl) : (t.put (here ++ [name]) .directory).Sound)
        ((hput _).trans (if_pos rfl))
        (fun p hmem node hnode => by
          rw [hput] at hnode
          split at hnode
          · exact (Option.some.inj hnode).symm
          · refine hf p (List.mem_cons_of_mem _ ?_) node hnode
            rwa [step_of_isProper hp]) hrest
      refine ⟨u, ?_, ha.sound, ha.workingDirectory, fun place => ?_⟩
      · rw [createFrom, if_neg (not_or.2 ⟨hp.1, hp.2.1⟩), if_neg hp.2.2,
          if_neg (Nat.not_lt.2 hfit), hm]
        exact hu
      · rw [ha.node? place, hput, way, step_of_isProper hp]
        by_cases he : place = here ++ [name]
        · rw [he, hm]
          simp
        · simp only [he, if_false, List.mem_cons, false_or]

/-- A name is passed if it leads to a directory, or if one can be made there. -/
theorem of_createFrom_cons {t u : FileTree} (hs : t.Sound) {here rest : List Text} {name : Text}
    (h : t.node? here = some .directory) (hu : t.createFrom here (name :: rest) = (u, true)) :
    t.node? (step here name) = some .directory ∧ t.createFrom (step here name) rest = (u, true) ∨
      t.node? (here ++ [name]) = none ∧ step here name = here ++ [name] ∧
        (t.put (here ++ [name]) .directory).createFrom (here ++ [name]) rest = (u, true) := by
  rw [createFrom] at hu
  rcases name_cases name with he | rfl | hp
  · rw [if_pos he] at hu
    rw [step_of_isEmpty_or_dot he]
    exact .inl ⟨h, hu⟩
  · rw [if_neg (by decide), if_pos rfl] at hu
    rw [step_back]
    exact .inl ⟨hs.back h, hu⟩
  · rw [if_neg (not_or.2 ⟨hp.1, hp.2.1⟩), if_neg hp.2.2] at hu
    rw [step_of_isProper hp]
    split at hu
    · cases hu
    split at hu
    · next hn => exact .inr ⟨hn, rfl, hu⟩
    · next hn => exact .inl ⟨hn, hu⟩
    · cases hu

/-- Directories are made all along a way only if no file stands there. -/
theorem noFileOn_of_createFrom {t u : FileTree} (hs : t.Sound) {here names : List Text}
    (h : t.node? here = some .directory) (hu : t.createFrom here names = (u, true)) :
    t.NoFileOn here names := by
  induction names generalizing t here with
  | nil => exact nofun
  | cons name names ih =>
    refine List.forall_mem_cons.2 ?_
    rcases of_createFrom_cons hs h hu with ⟨hd, hu⟩ | ⟨hn, hstep, hu⟩
    · exact ⟨fun node hnode => Option.some.inj (hnode.symm.trans hd), ih hs hd hu⟩
    · rw [hstep]
      have hput := node?_put t (by simp : here ++ [name] ≠ []) .directory
      have hf := ih (hs.put h (.inl rfl)) ((hput _).trans (if_pos rfl)) hu
      refine ⟨fun node hnode => ?_, fun place hp node hnode => hf place hp node ?_⟩
      · rw [hn] at hnode
        cases hnode
      · rw [hput, if_neg fun he => ?_, hnode]
        rw [he, hn] at hnode
        cases hnode

theorem Adds.directory {t u : FileTree} {here names : List Text} (ha : Adds t u (way here names))
    (hf : t.NoFileOn here names) :
    ∀ place ∈ way here names, u.node? place = some .directory := by
  intro place hp
  rw [ha.node? place]
  cases hn : t.node? place with
  | none => rw [if_pos ⟨hp, rfl⟩]
  | some node =>
    obtain rfl := hf place hp node hn
    rw [if_neg fun h => Option.some_ne_none _ h.2]

/-- What stood somewhere still does. -/
theorem Adds.keeps {t u : FileTree} {places : List (List Text)} (ha : Adds t u places)
    {place : List Text} {node : FileNode} (h : t.node? place = some node) :
    u.node? place = some node := by
  rw [ha.node? place, if_neg, h]
  rw [h]
  exact fun hn => Option.some_ne_none node hn.2

end Implementors.FileTree
