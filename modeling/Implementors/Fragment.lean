import Implementors.Catalog
import Implementors.Text
import Implementors.Text.Literal

/-!
# Fragments

A fragment is the script that lists the implementors of one trait: for each crate the markup of its
implementors. Crates keep the order in which they were first assigned, and assigning a crate again
replaces its list in place. A fragment is written as one assignment a line, between an opening that
every fragment shares and a closing that hands the lists to the page.
-/
namespace Implementors

/-- Per crate the markup of its implementors. -/
abbrev Fragment := Catalog Text (List Text)

namespace Fragment

/-- Assigns a crate its list, in the place of an earlier one if there is any. -/
def assign (f : Fragment) (crate : Text) (items : List Text) : Fragment := f.insert crate items

/-- The beginning of every fragment. -/
def opening : Text := "(function() \x7bvar implementors = \x7b\x7d;".toList

/-- The end of every fragment: registers the lists, or leaves them until that is possible. -/
def closing : Text :=
  "\n            if (window.register_implementors) \x7b\n".toList ++
    "                window.register_implementors(implementors);\n".toList ++
    "            \x7d else \x7b\n".toList ++
    "                window.pending_implementors = implementors;\n".toList ++
    "            \x7d\n        \n\x7d)()\n".toList

/-- The beginning of an assignment. -/
def assignmentStart : Text := "implementors[".toList

/-- What stands between the name and the list of an assignment. -/
def assignmentMiddle : Text := "] = ".toList

/-- The line that assigns a crate its list, with a comma after each item. -/
def assignment (crate : Text) (items : List Text) : Text :=
  assignmentStart ++ Text.Literal.write crate ++ assignmentMiddle ++ ['['] ++
    items.flatMap (fun item => Text.Literal.write item ++ [',']) ++ "];".toList

def emit (f : Fragment) : Text :=
  opening ++ ['\n'] ++ f.entries.flatMap (fun e => assignment e.1 e.2 ++ ['\n']) ++ closing

end Fragment
end Implementors
