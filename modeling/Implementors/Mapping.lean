import Implementors.Fragment
import Implementors.Implementor
import Implementors.Markup.Layout
import Implementors.Markup.Reader

/-!
# Mappings

A mapping lists implementors by crate, as one fragment declares them. Adding to a crate that is
there extends its list. A fragment and a mapping turn into one another by reading and rendering
markup; markup that was read is kept, so the way there and back loses nothing.
-/
namespace Implementors

abbrev Mapping := Catalog Text (List Implementor)

namespace Mapping

/-- Collects entries in order; a crate that is met again is extended. -/
def ofEntries (entries : List (Text × List Implementor)) : Mapping :=
  entries.foldl (fun m e => m.append e.1 e.2) Catalog.empty

/-- The implementors that a fragment lists. -/
def ofFragment (f : Fragment) : Mapping :=
  ofEntries (f.entries.map fun e => (e.1, e.2.map Markup.read))

/-- The two say the same, however the crates are ordered and the implementors marked up. -/
def SameHeaders (a b : Mapping) : Prop :=
  a.Agree (fun x y => x.map Implementor.header = y.map Implementor.header) b

instance (a b : Mapping) : Decidable (SameHeaders a b) := inferInstanceAs (Decidable (_ ∧ _))

end Mapping

/-- The fragment that lists the implementors of a mapping, rendered where they have no markup. -/
def Fragment.ofMapping (links : LinkTable) (m : Mapping) : Fragment :=
  m.map (·.map (Implementor.shown links))

/-- The two assign every crate the same list, in whatever order. -/
def Fragment.Agree (a b : Fragment) : Prop := Catalog.Agree (· = ·) a b

instance (a b : Fragment) : Decidable (a.Agree b) := inferInstanceAs (Decidable (_ ∧ _))

end Implementors
