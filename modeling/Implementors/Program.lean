import Implementors.Command.Emit
import Implementors.Command.Page
import Implementors.CommandLine

/-!
# The program

The program carries out one command line. It prints the paths of the fragments it wrote, or the
page, and nothing of either if the command fails. It exits with 0 if all went well, with 1 if the
command failed, and with 2 if the command line was refused.
-/
namespace Implementors

/-- How the program ended. -/
structure Outcome where
  exit : Nat
  stdout : Text
  stderr : Text
  deriving DecidableEq, Repr

namespace Program

def usage : Text :=
  ("Emit and replay documentation implementor fragments\n\n" ++
    "Usage: implex [OPTIONS] <COMMAND>\n\n" ++
    "Commands:\n" ++
    "  emit    Write one implementors fragment per trait listed in a manifest\n" ++
    "  render  Load fragments into a page, attach the panel and print it\n" ++
    "  help    Print this message or the help of the given subcommand(s)\n\n" ++
    "Options:\n" ++
    "  -v, --verbose  Verbose logging\n" ++
    "  -h, --help     Print help\n" ++
    "  -V, --version  Print version\n").toList

def version : Text := "implex 0.1.0\n".toList

/-- What is said of a command line that is not carried out. -/
def refusalMessage : CommandLine.Refusal → Text
  | .missingManifest => "error: the manifest is missing\n".toList
  | .invalidValue => "error: a value is missing or invalid\n".toList
  | .unknownArgument => "error: unexpected argument\n".toList
  | .givenTwice => "error: an argument cannot be used multiple times\n".toList
  | .flagWithValue => "error: a flag takes no value\n".toList
  | .unknownCommand => "error: unrecognized subcommand\n".toList
  | .missingCommand => "error: a subcommand is required\n".toList
  | .nothingGiven | .help => usage
  | .version => version

def refuse : CommandLine.Refusal → Outcome
  | .help => ⟨0, usage, []⟩
  | .version => ⟨0, version, []⟩
  | refusal => ⟨2, [], refusalMessage refusal⟩

variable {m : Type → Type} [Monad m] [FileSystem m]

/-- The output of a command. -/
def carryOut : CommandLine.Request → Command m Text
  | .emit manifest out => do
    let files ← emit (← Manifest.load manifest) out
    pure (files.flatMap (· ++ ['\n']))
  | .render request => page request

/-- Carries out the command line with the given arguments. -/
def run (arguments : List Text) : m Outcome := do
  match CommandLine.parse arguments with
  | .error refusal => pure (refuse refusal)
  | .ok invocation =>
    match ← (carryOut invocation.request : Command m Text) with
    | .ok output => pure ⟨0, output, []⟩
    | .error e => pure ⟨1, [], "Error: ".toList ++ e.message ++ ['\n']⟩

end Program
end Implementors
