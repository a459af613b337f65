import Implementors.Registrar

/-!
# The implementors panel

The panel is the section of a trait's page that lists its implementors, as page markup or as plain
text. The crate whose page is being viewed is left out, since its implementors are part of the page.
-/
namespace Implementors

inductive Format where
  | html
  | text
  deriving DecidableEq, Repr

structure PanelOptions where
  format : Format := .html
  /-- The crate whose page is being viewed. -/
  currentCrate : Option Text := none
  /-- Links for implementors that come without markup. -/
  links : LinkTable := Catalog.empty

/-- A panel with what it showed last. -/
structure Panel where
  options : PanelOptions
  contents : Text := []
  renders : Nat := 0
  /-- The number of implementors listed last. -/
  shown : Nat := 0

namespace Panel

/-- The crates of a store without the current one. -/
def visible (current : Option Text) (store : Store) : List (Text × List Implementor) :=
  store.byCrate.entries.filter fun e => some e.1 != current

/-- The row of one implementor in page markup. -/
def htmlRow (links : LinkTable) (crate : Text) (i : Implementor) : Text :=
  "<div class=\"impl\" data-crate=\"".toList ++ Markup.escape crate ++
    "\"><code class=\"in-band\">".toList ++ i.shown links ++ "</code></div>\n".toList

def html (links : LinkTable) (crates : List (Text × List Implementor)) : Text :=
  "<h2 id=\"implementors\" class=\"small-section-header\">Implementors</h2>\n".toList ++
    "<div id=\"implementors-list\">\n".toList ++
    crates.flatMap (fun e => e.2.flatMap (htmlRow links e.1)) ++ "</div>\n".toList

/-- The line of one implementor in plain text; free text is squashed to fit on it. -/
def textLine (i : Implementor) : Text :=
  "    ".toList ++
    (if i.header.isVerbatim then Text.squash i.header.typeName else i.header.display) ++ ['\n']

/-- The lines of one crate, none if it has no implementors. -/
def textLines (crate : Text) (implementors : List Implementor) : Text :=
  if implementors.isEmpty then []
  else "  ".toList ++ crate ++ ['\n'] ++ implementors.flatMap textLine

def text (crates : List (Text × List Implementor)) : Text :=
  "Implementors\n".toList ++
    if crates.all (·.2.isEmpty) then "  (none)\n".toList
    else crates.flatMap fun e => textLines e.1 e.2

/-- The section for a store, and the number of implementors in it. -/
def renderStore (options : PanelOptions) (store : Store) : Text × Nat :=
  let crates := visible options.currentCrate store
  (match options.format with
    | .html => html options.links crates
    | .text => text crates,
    (crates.flatMap (·.2)).length)

instance : Viewer Panel where
  render p store _ :=
    let (contents, shown) := renderStore p.options store
    { p with contents, shown, renders := p.renders + 1 }

end Panel
end Implementors
