import Implementors.Proofs.Files.Ways
import Implementors.Proofs.Text.Lines
import Mathlib

/-!
# Paths below a root

A path that is joined to a root has the names of the root and then its own; the slash at the end of a
root, and an empty root, make no difference to where it leads. So a file below a root is read, and
written, at the end of the way along these names.
-/
namespace Implementors

/-- A path that leads on from wherever it is joined to. -/
structure IsRelative (path : Text) : Prop where
  ne_nil : path ≠ []
  head_ne : path.head? ≠ some '/'

theorem joinPath_append (root path rest : Text) :
    joinPath root (path ++ rest) = joinPath root path ++ rest := by
  rw [joinPath, joinPath]
  split <;> simp

/-- Up to an empty name where root and path meet, the names of a joined path are those of both. -/
theorem pathNames_joinPath (root path : Text) :
    ∃ names blank, (blank = [] ∨ blank = [[]]) ∧ pathNames root = names ++ blank ∧
      pathNames (joinPath root path) = names ++ pathNames path := by
  have hsplit : ∀ s t : Text, pathNames (s ++ '/' :: t) = pathNames s ++ pathNames t := by
    intro s t
    rw [pathNames, pathNames, pathNames, Text.splitOn_eq_list_splitOn, Text.splitOn_eq_list_splitOn,
      Text.splitOn_eq_list_splitOn, List.splitOn_append_cons_self]
  rcases List.eq_nil_or_concat' root with rfl | ⟨front, c, rfl⟩
  · exact ⟨[], [[]], .inr rfl, rfl, rfl⟩
  · have hne : (front ++ [c]).isEmpty = false := by simp
    have hl : (front ++ [c]).getLast? = some c := List.getLast?_concat
    by_cases hc : c = '/'
    · subst hc
      refine ⟨pathNames front, [[]], .inr rfl, hsplit front [], ?_⟩
      rw [joinPath, hne, hl]
      exact (congrArg pathNames (List.append_assoc _ _ _)).trans (hsplit front path)
    · refine ⟨pathNames (front ++ [c]), [], .inl rfl, (List.append_nil _).symm, ?_⟩
      have hs : (some c == some '/') = false := beq_eq_false_iff_ne.2 fun he => hc (Option.some.inj he)
      rw [joinPath, hne, hl, hs]
      exact hsplit _ path

theorem pathNames_ne_nil (path : Text) : pathNames path ≠ [] := by
  rw [pathNames, Text.splitOn_eq_list_splitOn]
  exact List.splitOn_ne_nil '/' path

namespace FileTree

/-- The file system can hold the path. -/
def Fits (path : Text) : Prop := byteLength path ≤ maxPath ∧ NamesFit (pathNames path)

instance (path : Text) : Decidable (Fits path) := inferInstanceAs (Decidable (_ ∧ _))

theorem byteLength_append (s t : Text) : byteLength (s ++ t) = byteLength s + byteLength t := by
  induction t using List.reverseRecOn with
  | nil => rw [List.append_nil]; rfl
  | append_singleton t c ih =>
    have hc : ∀ u : Text, byteLength (u ++ [c]) = byteLength u + c.utf8Size :=
      fun u => List.foldl_append
    rw [← List.append_assoc, hc, hc, ih, Nat.add_assoc]

theorem namesFit_append {names more : List Text} :
    NamesFit (names ++ more) ↔ NamesFit names ∧ NamesFit more :=
  List.forall_mem_append

theorem namesFit_joinPath {root path : Text} :
    NamesFit (pathNames (joinPath root path)) ↔ NamesFit (pathNames root ++ pathNames path) := by
  obtain ⟨names, blank, hb, hr, hj⟩ := pathNames_joinPath root path
  have he : NamesFit blank := by
    rcases hb with rfl | rfl
    · exact nofun
    · exact List.forall_mem_singleton.2 (by decide)
  rw [hj, hr]
  simp only [namesFit_append, he, and_true]

theorem origin_joinPath (t : FileTree) (root : Text) {path : Text} (h : IsRelative path) :
    t.origin (joinPath root path) = t.origin root := by
  have hh : (joinPath root path).head? = some '/' ↔ root.head? = some '/' := by
    cases root with
    | nil => exact iff_of_false h.head_ne nofun
    | cons c root =>
      rw [joinPath]
      split <;> simp
  simp only [origin, hh]

/-- An empty name before another one leads nowhere. -/
theorem follow_append_blank (t : FileTree) {blank : List Text} (h : blank = [] ∨ blank = [[]])
    (here names : List Text) {more : List Text} (hm : more ≠ []) :
    t.follow here (names ++ blank ++ more) = t.follow here (names ++ more) := by
  rcases h with rfl | rfl
  · rw [List.append_nil]
  · obtain ⟨name, rest, rfl⟩ := List.exists_cons_of_ne_nil hm
    have hs : ∀ there, t.follow there ([] :: name :: rest) = t.follow there (name :: rest) := by
      intro there
      cases hn : t.node? there with
      | none => rw [follow, follow, hn]
      | some node =>
        cases node with
        | directory => rw [follow_cons hn (by decide), step_of_isEmpty_or_dot (.inl rfl)]
        | text contents => rw [follow, follow, hn]
        | binary => rw [follow, follow, hn]
    rw [List.append_assoc, follow_append, follow_append]
    exact congrArg _ (funext hs)

theorem createFrom_append_blank (t : FileTree) {blank : List Text}
    (h : blank = [] ∨ blank = [[]]) (here names more : List Text) :
    t.createFrom here (names ++ blank ++ more) = t.createFrom here (names ++ more) := by
  rcases h with rfl | rfl
  · rw [List.append_nil]
  · induction names generalizing t here with
    | nil => rfl
    | cons name names ih =>
      simp only [List.cons_append, createFrom, ih]

/-- A path below a root leads along the names of the root and then its own. -/
theorem locate_joinPath (t : FileTree) (root : Text) {path : Text} (h : IsRelative path) :
    t.locate (joinPath root path) =
      if maxPath < byteLength (joinPath root path) then .error .unreadable
      else t.follow (t.origin root) (pathNames root ++ pathNames path) := by
  obtain ⟨names, blank, hb, hr, hj⟩ := pathNames_joinPath root path
  have hne : (joinPath root path).isEmpty = false := by
    rw [joinPath]
    split
    · simp [h.ne_nil]
    · simp
  rw [locate, hne, origin_joinPath t root h, hj, hr,
    follow_append_blank t hb _ _ (pathNames_ne_nil path)]
  rfl

theorem createDirectories_joinPath (t : FileTree) (root : Text) {path : Text}
    (h : IsRelative path) :
    t.createDirectories (joinPath root path) =
      if maxPath < byteLength (joinPath root path) then (t, false)
      else t.createFrom (t.origin root) (pathNames root ++ pathNames path) := by
  obtain ⟨names, blank, hb, hr, hj⟩ := pathNames_joinPath root path
  rw [createDirectories, origin_joinPath t root h, hj, hr, createFrom_append_blank t hb]

/-- Only a path that fits leads anywhere. -/
theorem fits_of_locate {t : FileTree} {path : Text} {place : List Text}
    (h : t.locate path = .ok place) : Fits path := by
  rw [locate] at h
  split at h
  · cases h
  split at h
  · cases h
  · next hl => exact ⟨Nat.not_lt.1 hl, (of_follow_eq_ok h).2.1⟩

theorem fits_of_write {t u : FileTree} {path contents : Text}
    (h : t.write path contents = (u, true)) : Fits path := by
  rw [write] at h
  cases hl : t.locate path with
  | error e =>
    rw [hl] at h
    cases h
  | ok place => exact fits_of_locate hl

section Below

variable {t : FileTree} {root directory name : Text}

/-- The place of a directory below a root. -/
def placeBelow (t : FileTree) (root directory : Text) : List Text :=
  walk (t.origin root) (pathNames root ++ pathNames directory)

/-- The places on the way to a directory below a root. -/
def wayBelow (t : FileTree) (root directory : Text) : List (List Text) :=
  way (t.origin root) (pathNames root ++ pathNames directory)

/-- The path of a file in a directory below a root. -/
def fileBelow (root directory name : Text) : Text := joinPath root (directory ++ '/' :: name)

theorem Sound.origin (hs : t.Sound) (path : Text) : t.node? (t.origin path) = some .directory := by
  rw [FileTree.origin]
  split
  · rfl
  · exact hs.workingDirectory

theorem pathNames_file (hn : '/' ∉ name) :
    pathNames (directory ++ '/' :: name) = pathNames directory ++ [name] := by
  have hs : List.splitOn '/' (['/'].intercalate [name]) = [name] :=
    List.splitOn_intercalate '/' (List.forall_mem_singleton.2 hn) (List.cons_ne_nil _ _)
  rw [List.intercalate_singleton] at hs
  rw [pathNames, pathNames, Text.splitOn_eq_list_splitOn, Text.splitOn_eq_list_splitOn,
    List.splitOn_append_cons_self, hs]

theorem isRelative_file (hd : IsRelative directory) : IsRelative (directory ++ '/' :: name) := by
  obtain ⟨c, rest, rfl⟩ := List.exists_cons_of_ne_nil hd.ne_nil
  exact ⟨by simp, hd.head_ne⟩

theorem locate_fileBelow (hd : IsRelative directory) (hn : '/' ∉ name)
    (hfit : Fits (fileBelow root directory name)) :
    t.locate (fileBelow root directory name) =
      t.follow (t.origin root) (pathNames root ++ pathNames directory ++ [name]) := by
  have hl : ¬ maxPath < byteLength (joinPath root (directory ++ '/' :: name)) :=
    Nat.not_lt.2 hfit.1
  rw [fileBelow, locate_joinPath t root (isRelative_file hd), pathNames_file hn, if_neg hl,
    List.append_assoc]

theorem namesFit_of_fits (hn : '/' ∉ name) (hfit : Fits (fileBelow root directory name)) :
    NamesFit (pathNames root ++ pathNames directory) ∧ byteLength name ≤ maxName := by
  have h := namesFit_joinPath.1 hfit.2
  rw [pathNames_file hn, ← List.append_assoc, namesFit_append] at h
  exact ⟨h.1, h.2 name List.mem_cons_self⟩

/-- If the directory of a file is there, its path leads into that directory. -/
theorem locate_of_directories (hs : t.Sound) (hd : IsRelative directory) (hn : '/' ∉ name)
    (hp : IsProper name) (hfit : Fits (fileBelow root directory name))
    (hw : ∀ place ∈ t.wayBelow root directory, t.node? place = some .directory) :
    t.locate (fileBelow root directory name) = .ok (t.placeBelow root directory ++ [name]) := by
  obtain ⟨hnames, hname⟩ := namesFit_of_fits hn hfit
  have hall : ∀ place ∈ way (t.origin root) (pathNames root ++ pathNames directory),
      t.node? place = some .directory := hw
  have hfollow := follow_of_directories (hs.origin root) hall hnames
  have hend : t.node? (t.placeBelow root directory) = some .directory :=
    node?_walk_of_directories (hs.origin root) hall
  rw [locate_fileBelow hd hn hfit, follow_append, hfollow]
  exact (follow_cons hend hname []).trans (congrArg Except.ok (step_of_isProper hp _))

/-- What stands at the place of a file is what is read there, if no file is in the way and the path
does not step back out of a missing directory. -/
theorem read_fileBelow (hs : t.Sound) (hd : IsRelative directory) (hn : '/' ∉ name)
    (hp : IsProper name) (hfit : Fits (fileBelow root directory name))
    (hf : t.NoFileOn (t.origin root) (pathNames root ++ pathNames directory))
    (hb : t.Solid (t.origin root) (pathNames root ++ pathNames directory)) :
    t.read (fileBelow root directory name) =
      match t.node? (t.placeBelow root directory ++ [name]) with
      | none => .error .notFound
      | some (.text contents) => .ok contents
      | some _ => .error .unreadable := by
  obtain ⟨hnames, -⟩ := namesFit_of_fits hn hfit
  rcases directories_or_missing hs (hs.origin root) hf hb hnames with hw | ⟨hm, hl⟩
  · rw [read, locate_of_directories hs hd hn hp hfit hw]
    rfl
  · rw [read, locate_fileBelow hd hn hfit, hl name, placeBelow, hs.below hm [name]]
    rfl

/-- The directory of a file has a shorter path. -/
theorem byteLength_of_fits (hfit : Fits (fileBelow root directory name)) :
    byteLength (joinPath root directory) ≤ maxPath := by
  have h := hfit.1
  rw [fileBelow, joinPath_append, byteLength_append] at h
  omega

theorem createDirectories_adds (hs : t.Sound) (hd : IsRelative directory) (hn : '/' ∉ name)
    (hfit : Fits (fileBelow root directory name))
    (hf : t.NoFileOn (t.origin root) (pathNames root ++ pathNames directory)) :
    ∃ u, t.createDirectories (joinPath root directory) = (u, true) ∧
      Adds t u (t.wayBelow root directory) := by
  rw [createDirectories_joinPath t root hd, if_neg (Nat.not_lt.2 (byteLength_of_fits hfit))]
  exact createFrom_adds hs (hs.origin root) hf (namesFit_of_fits hn hfit).1

/-- Directories are made only where no file stands in the way. -/
theorem noFileOn_of_createDirectories {u : FileTree} (hs : t.Sound) (hd : IsRelative directory)
    (h : t.createDirectories (joinPath root directory) = (u, true)) :
    t.NoFileOn (t.origin root) (pathNames root ++ pathNames directory) := by
  rw [createDirectories_joinPath t root hd] at h
  split at h
  · cases h
  · exact noFileOn_of_createFrom hs (hs.origin root) h

theorem createDirectories_of_directories (hd : IsRelative directory) (hn : '/' ∉ name)
    (hfit : Fits (fileBelow root directory name))
    (hw : ∀ place ∈ t.wayBelow root directory, t.node? place = some .directory) :
    t.createDirectories (joinPath root directory) = (t, true) := by
  rw [createDirectories_joinPath t root hd, if_neg (Nat.not_lt.2 (byteLength_of_fits hfit))]
  exact createFrom_of_directories hw (namesFit_of_fits hn hfit).1

theorem read_of_locate {path contents : Text} {place : List Text} (hl : t.locate path = .ok place)
    (hn : t.node? place = some (.text contents)) : t.read path = .ok contents := by
  simp only [FileTree.read, hl, bind, Except.bind, hn]

theorem write_of_locate {path : Text} {place : List Text} (hl : t.locate path = .ok place)
    (hn : t.node? place ≠ some .directory) (contents : Text) :
    t.write path contents = (t.put place (.text contents), true) := by
  rw [write, hl]
  cases h : t.node? place with
  | none => simp only [h]
  | some node =>
    cases node with
    | directory => exact absurd h hn
    | text old => simp only [h]
    | binary => simp only [h]

end Below

end FileTree
end Implementors
