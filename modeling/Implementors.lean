import Implementors.Files.Tree
import Implementors.Main
import Implementors.Proofs.Text.Cutting
import Implementors.Text.Quoted
import Implementors.Proofs.Text.Literal
import Implementors.Proofs.Catalog
import Implementors.Proofs.Link
import Implementors.Proofs.Markup.Tags
import Implementors.Proofs.Fragment.RoundTrip
import Implementors.Proofs.Registrar.Runs
import Implementors.Proofs.Store.History
import Implementors.Proofs.Command.Runs
import Implementors.Proofs.Panel
import Implementors.Proofs.Command.Page
import Implementors.Proofs.Header
import Implementors.Proofs.Header.PlainText
import Implementors.Proofs.Nesting
import Implementors.Proofs.Text.Words
import Implementors.Proofs.Header.RoundTrip
import Implementors.Proofs.Registrar.Shown
import Implementors.Proofs.Files.Ways
import Implementors.Proofs.TraitPath
import Implementors.Proofs.Scripts
import Implementors.Proofs.Manifest
import Implementors.Proofs.Command.Emit
import Implementors.Proofs.Command.SharedRoot
import Implementors.Proofs.Command.EmitAgain
import Implementors.Proofs.Command.EmitStops
import Implementors.Proofs.Header.WellFormed
import Implementors.Proofs.Command.EmittedPage
import Implementors.Proofs.Store.Runs
import Implementors.Proofs.Store.Absorbed
import Implementors.Proofs.Store.Orders
import Implementors.Proofs.Store.Collected
import Implementors.Proofs.Header.Where
import Implementors.Proofs.Header.NormalForm
import Implementors.Proofs.Fragment.Faults
import Implementors.Proofs.Text.Spelled
import Implementors.Proofs.Fragment.Layouts
import Implementors.Proofs.Registrar.Answers
import Implementors.Proofs.Registrar.Growth
import Implementors.Proofs.Store.Growth
import Implementors.Proofs.TraitPath.Reading
import Implementors.Proofs.Panel.Lines
import Implementors.Proofs.Text.Numerals
import Implementors.Proofs.Markup.References
import Implementors.Proofs.Markup.Reading
import Implementors.Proofs.Mapping
import Implementors.Proofs.Markup.Window
import Implementors.Proofs.Nesting.Commas
