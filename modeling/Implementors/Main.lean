import Implementors.Program

/-!
# The command line program

The files of the machine, and the entry point that carries out one command line on them.
-/
namespace Implementors

/-- Reads a file of the machine as text. -/
def readMachineFile (path : Text) : IO (Except ReadFailure Text) := do
  try
    let bytes ← IO.FS.readBinFile (String.ofList path)
    match String.fromUTF8? bytes with
    | some s => pure (.ok s.toList)
    | none => pure (.error .unreadable)
  catch e =>
    match e with
    | .noFileOrDirectory .. => pure (.error .notFound)
    | _ => pure (.error .unreadable)

/-- Does something with the files of the machine; answers whether that worked. -/
def succeeds (action : IO Unit) : IO Bool := do
  try
    action
    pure true
  catch _ => pure false

instance : FileSystem IO where
  read := readMachineFile
  createDirectories path := succeeds (IO.FS.createDirAll (String.ofList path))
  write path contents :=
    succeeds (IO.FS.writeFile (String.ofList path) (String.ofList contents))

end Implementors

open Implementors in
def main (arguments : List String) : IO UInt32 := do
  let outcome ← Program.run (arguments.map String.toList)
  (← IO.getStdout).putStr (String.ofList outcome.stdout)
  (← IO.getStderr).putStr (String.ofList outcome.stderr)
  pure outcome.exit.toUInt32
