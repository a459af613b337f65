import Implementors.Command.Page
import Implementors.Proofs.Command.Runs
import Implementors.Proofs.Header
import Implementors.Proofs.Mapping
import Implementors.Proofs.Panel
import Implementors.Proofs.Store.History
import Mathlib

/-!
# What a page shows

A page is written from a table: the crates in the order in which the fragments of its files first
mention them, and under each the distinct markup strings in the order in which they first appear.
Whether a file loads before the panel or after it makes no difference; the first file that cannot be
loaded ends the page load.
-/
namespace Implementors

/-- The fragment in a file. -/
def FileTree.fragment (t : FileTree) (path : Text) : Except CommandError Fragment :=
  match t.read path with
  | .error _ => .error (.notRead path)
  | .ok source =>
    match Fragment.parse source with
    | .error e => .error (.notParsed path e)
    | .ok f => .ok f

namespace PageRequest

/-- The crates of some fragments in order of first mention, each with its distinct markup. -/
def table (fragments : List Fragment) : List (Text × List Text) :=
  let entries := fragments.flatMap (·.entries)
  (mentioned entries).map fun crate => (crate, (listedFor crate entries).eraseDups)

/-- One implementor as a row of page markup, its own markup as it is. -/
def htmlEntry (crate markup : Text) : Text :=
  "<div class=\"impl\" data-crate=\"".toList ++ Markup.escape crate ++
    "\"><code class=\"in-band\">".toList ++ markup ++ "</code></div>\n".toList

/-- What the header says that markup shows; free text is squashed. -/
def shownText (markup : Text) : Text :=
  let h := Header.ofText (Markup.toText markup)
  if h.isVerbatim then Text.squash (Markup.toText markup) else h.display

def textEntry (markup : Text) : Text := "    ".toList ++ shownText markup ++ ['\n']

def htmlPage (rows : List (Text × List Text)) : Text :=
  "<h2 id=\"implementors\" class=\"small-section-header\">Implementors</h2>\n".toList ++
    "<div id=\"implementors-list\">\n".toList ++
    rows.flatMap (fun row => row.2.flatMap (htmlEntry row.1)) ++ "</div>\n".toList

/-- The lines of the crates that have an entry. -/
def textPage (rows : List (Text × List Text)) : Text :=
  "Implementors\n".toList ++
    if rows.all (·.2.isEmpty) then "  (none)\n".toList
    else (rows.filter (!·.2.isEmpty)).flatMap fun row =>
      "  ".toList ++ row.1 ++ ['\n'] ++ row.2.flatMap textEntry

/-- The page that shows a table. -/
def write : Format → List (Text × List Text) → Text
  | .html, rows => htmlPage rows
  | .text, rows => textPage rows

/-- The rows of a table without those of the current crate. -/
def others (current : Option Text) (rows : List (Text × List Text)) : List (Text × List Text) :=
  rows.filter fun row => some row.1 != current

end PageRequest

namespace Panel

theorem htmlRow_read (links : LinkTable) (crate markup : Text) :
    htmlRow links crate (Markup.read markup) = PageRequest.htmlEntry crate markup :=
  rfl

theorem textLine_read (markup : Text) :
    textLine (Markup.read markup) = PageRequest.textEntry markup := by
  have hs : (if (Header.ofText (Markup.toText markup)).isVerbatim
      then Text.squash (Header.ofText (Markup.toText markup)).typeName
      else (Header.ofText (Markup.toText markup)).display) = PageRequest.shownText markup := by
    rw [PageRequest.shownText]
    split
    · next hv => rw [Header.isVerbatim_ofText_iff.1 hv]; rfl
    · rfl
  exact congrArg (fun s => "    ".toList ++ s ++ ['\n']) hs

/-- Crates without implementors have no lines. -/
theorem flatMap_textLines (rows : List (Text × List Text)) :
    (rows.map fun row => (row.1, row.2.map Markup.read)).flatMap (fun e => textLines e.1 e.2) =
      (rows.filter (!·.2.isEmpty)).flatMap fun row =>
        "  ".toList ++ row.1 ++ ['\n'] ++ row.2.flatMap PageRequest.textEntry := by
  induction rows with
  | nil => rfl
  | cons row rows ih =>
    rw [List.map_cons, List.flatMap_cons, ih]
    cases hr : row.2 with
    | nil => simp [textLines, hr]
    | cons m ms =>
      have hl : ∀ m, textLine (Markup.read m) = PageRequest.textEntry m := textLine_read
      simp [textLines, hr, List.flatMap_map, hl]

theorem html_of_markup (links : LinkTable) (rows : List (Text × List Text)) :
    html links (rows.map fun row => (row.1, row.2.map Markup.read)) =
      PageRequest.htmlPage rows := by
  have hr : (rows.map fun row => (row.1, row.2.map Markup.read)).flatMap
      (fun e => e.2.flatMap (htmlRow links e.1)) =
        rows.flatMap fun row => row.2.flatMap (PageRequest.htmlEntry row.1) := by
    rw [List.flatMap_map]
    refine List.flatMap_congr fun row _ => ?_
    rw [List.flatMap_map]
    exact List.flatMap_congr fun m _ => htmlRow_read links row.1 m
  unfold html PageRequest.htmlPage
  rw [hr]

theorem text_of_markup (rows : List (Text × List Text)) :
    text (rows.map fun row => (row.1, row.2.map Markup.read)) = PageRequest.textPage rows := by
  have he : (rows.map fun row => (row.1, row.2.map Markup.read)).all (·.2.isEmpty) =
      rows.all (·.2.isEmpty) := by
    simp [List.all_map, Function.comp_def]
  unfold text PageRequest.textPage
  rw [flatMap_textLines, he]

/-- A panel shows a store whose implementors were read from markup as the page for that markup. -/
theorem renderStore_of_markup (options : PanelOptions) {store : Store}
    {rows : List (Text × List Text)}
    (h : store.byCrate.entries = rows.map fun row => (row.1, row.2.map Markup.read)) :
    (renderStore options store).1 =
      PageRequest.write options.format (PageRequest.others options.currentCrate rows) := by
  have hv : visible options.currentCrate store =
      (PageRequest.others options.currentCrate rows).map
        fun row => (row.1, row.2.map Markup.read) := by
    rw [visible, h, List.filter_map]
    rfl
  rw [renderStore, hv]
  cases options.format with
  | html => exact html_of_markup _ _
  | text => exact text_of_markup _

end Panel

/-- Skipping identical implementors leaves each markup string once. -/
theorem Store.entries_mergedOnto_ofFragment (fragments : List Fragment) :
    ((Store.empty .skipIdentical).mergedOnto (fragments.map Mapping.ofFragment)).byCrate.entries =
      (PageRequest.table fragments).map fun row => (row.1, row.2.map Markup.read) := by
  have he : (fragments.map Mapping.ofFragment).flatMap (·.entries) =
      (fragments.flatMap (·.entries)).map fun e => (e.1, e.2.map Markup.read) := by
    simp only [List.flatMap_map, List.map_flatMap, Mapping.entries_ofFragment]
  rw [mergedOnto_eq, he, entries_registeredOnto_empty, mentioned_map fun _ => List.map Markup.read,
    PageRequest.table, List.map_map]
  refine List.map_congr_left fun crate _ => ?_
  rw [listedFor_map fun _ => Markup.read]
  exact congrArg (Prod.mk crate) (eraseDups_map Markup.read_injective _)

open Command Registrar

theorem on_loadMapping (path : Text) (t : FileTree) :
    on (loadMapping path) t = ((t.fragment path).map Mapping.ofFragment, t) := by
  rw [loadMapping, on_bind_ok (on_read path t), FileTree.fragment]
  cases t.read path with
  | error e => rfl
  | ok source =>
    cases hp : Fragment.parse source with
    | error e => simp only [hp]; rfl
    | ok f => simp only [hp]; rfl

/-- The calls that register some fragments. -/
def registrations (fragments : List Fragment) : List (Call Panel) :=
  (fragments.map Mapping.ofFragment).map .register

/-- Files are registered one after another; the first that holds no fragment ends this. -/
theorem on_registerFiles (r : Registrar Panel) (paths : List Text) (t : FileTree) :
    on (registerFiles r paths) t =
      ((paths.mapM t.fragment).map fun fragments => r.run (registrations fragments), t) := by
  induction paths generalizing r with
  | nil => rfl
  | cons path rest ih =>
    rw [registerFiles, List.mapM_cons]
    cases hf : t.fragment path with
    | error e =>
      rw [on_bind_error (by rw [on_loadMapping, hf]; rfl)]
      rfl
    | ok f =>
      rw [on_bind_ok (by rw [on_loadMapping, hf]; rfl), ih]
      cases rest.mapM t.fragment with
      | error e => rfl
      | ok fragments => rfl

/-- A panel that is attached between two lots of fragments ends up showing the page for all. -/
theorem contents_run_registrations (options : PanelOptions) (early late : List Fragment) :
    ((waiting Panel .skipIdentical).run (registrations early ++
        [.attach { options }] ++ registrations late)).viewer?.elim [] Panel.contents =
      PageRequest.write options.format
        (PageRequest.others options.currentCrate (PageRequest.table (early ++ late))) := by
  have ha : Call.attached (registrations early ++
      [.attach ({ options } : Panel)] ++ registrations late) = true := by
    simp [Call.attached, Call.isAttach]
  have hm : Call.registered (registrations early ++
      [.attach ({ options } : Panel)] ++ registrations late) =
        (early ++ late).map Mapping.ofFragment := by
    rw [Call.registered_append, Call.registered_concat_attach, registrations, registrations,
      Call.registered_map_register, Call.registered_map_register, List.map_append]
  have hs : ShowsStore options ((waiting Panel .skipIdentical).run
      (registrations early ++ [.attach { options }] ++ registrations late)) := by
    rw [run_append]
    exact (showsStore_run_attach _ (Call.attached_map_register _) { options }).run _
  have he : ((waiting Panel .skipIdentical).run (registrations early ++
      [.attach { options }] ++ registrations late)).store.byCrate.entries =
        (PageRequest.table (early ++ late)).map fun row => (row.1, row.2.map Markup.read) := by
    rw [store_run_of_attached _ ha, hm]
    exact Store.entries_mergedOnto_ofFragment _
  rw [hs.contents]
  exact Panel.renderStore_of_markup options he

/-- A page load gives the page for the table of all fragments, or the error of the first file that
holds none; where the files are split between early and late does not matter. -/
theorem on_page (request : PageRequest) (t : FileTree) :
    on (page request) t =
      (((request.early ++ request.late).mapM t.fragment).map fun fragments =>
        PageRequest.write request.format
          (PageRequest.others request.currentCrate (PageRequest.table fragments)), t) := by
  rw [page, List.mapM_append]
  cases he : request.early.mapM t.fragment with
  | error e =>
    rw [on_bind_error (by rw [on_registerFiles, he]; rfl)]
    rfl
  | ok early =>
    rw [on_bind_ok (by rw [on_registerFiles, he]; rfl)]
    obtain ⟨drained, hd⟩ := attach_run_of_not_attached .skipIdentical
      (Call.attached_map_register (early.map Mapping.ofFragment))
      ({ options := { format := request.format, currentCrate := request.currentCrate } } : Panel)
    simp only [registrations, hd]
    cases hl : request.late.mapM t.fragment with
    | error e =>
      rw [on_bind_error (by rw [on_registerFiles, hl]; rfl)]
      rfl
    | ok late =>
      have hc := contents_run_registrations
        { format := request.format, currentCrate := request.currentCrate } early late
      rw [run_append] at hc
      rw [on_bind_ok (by rw [on_registerFiles, hl]; rfl), on_pure]
      exact congrArg (fun s => (Except.ok s, t)) hc

/-- An element fails before all others if it fails and those before it do not. -/
theorem mapM_eq_error_iff {α β ε : Type} {f : α → Except ε β} {xs : List α} {e : ε} :
    xs.mapM f = .error e ↔ ∃ before x after, xs = before ++ x :: after ∧
      (∀ y ∈ before, ∃ b, f y = .ok b) ∧ f x = .error e := by
  constructor
  · intro h
    induction xs with
    | nil => cases h
    | cons y xs ih =>
      rw [List.mapM_cons] at h
      cases hy : f y with
      | error d =>
        rw [hy] at h
        cases h
        exact ⟨[], y, xs, rfl, nofun, hy⟩
      | ok b =>
        have hx : xs.mapM f = .error e := by
          rw [hy] at h
          cases hm : xs.mapM f with
          | error d => rw [hm] at h; cases h; rfl
          | ok bs => rw [hm] at h; cases h
        obtain ⟨before, x, after, rfl, hb, he⟩ := ih hx
        exact ⟨y :: before, x, after, rfl, List.forall_mem_cons.2 ⟨⟨b, hy⟩, hb⟩, he⟩
  · rintro ⟨before, x, after, rfl, hb, he⟩
    induction before with
    | nil =>
      rw [List.nil_append, List.mapM_cons, he]
      rfl
    | cons y before ih =>
      obtain ⟨⟨b, hy⟩, hb⟩ := List.forall_mem_cons.1 hb
      rw [List.cons_append, List.mapM_cons, hy, ih hb]
      rfl

/-- A page load gives the page for the table of all fragments, early and late ones alike, unless a
file holds none: then it gives the error of the first such file. It changes no file. -/
theorem page_shows_table_or_first_error (request : PageRequest) (t : FileTree) :
    on (page request) t =
        (((request.early ++ request.late).mapM t.fragment).map fun fragments =>
          PageRequest.write request.format
            (PageRequest.others request.currentCrate (PageRequest.table fragments)), t) ∧
      ∀ e, on (page request) t = (.error e, t) ↔
        ∃ before path after, request.early ++ request.late = before ++ path :: after ∧
          (∀ p ∈ before, ∃ f, t.fragment p = .ok f) ∧ t.fragment path = .error e := by
  refine ⟨on_page request t, fun e => ?_⟩
  rw [on_page, ← mapM_eq_error_iff]
  cases (request.early ++ request.late).mapM t.fragment with
  | error d => simp [Except.map]
  | ok fragments => simp [Except.map]

end Implementors
