import Implementors.Command.Page

/-!
# Command lines

A command line names a command, its files and its options. Options may stand between the files; one
that takes a value takes it from behind an equals sign, from the rest of a cluster of short options,
or from the next argument unless that begins with a dash. After `--` every argument is a file.

Values wait until the next option or file of another kind, or the end, settles them; so an argument
that is not known is complained about before a value that is not good. What is given twice although
it is needed once is refused, at the root of the line and behind the command separately.
-/
namespace Implementors.CommandLine

/-- What is asked for. -/
inductive Request where
  | emit (manifest out : Text)
  | render (page : PageRequest)
  deriving DecidableEq, Repr

structure Invocation where
  verbose : Bool
  request : Request
  deriving DecidableEq, Repr

/-- Why a command line is not carried out. Asking for help or the version is among the reasons. -/
inductive Refusal where
  | missingManifest
  /-- A value is missing, is no possible value, or is an empty path. -/
  | invalidValue
  | unknownArgument
  /-- An option that takes one value, or a flag, is given twice. -/
  | givenTwice
  /-- A flag is given a value. -/
  | flagWithValue
  | unknownCommand
  /-- There are options and no command. -/
  | missingCommand
  /-- There is nothing at all. -/
  | nothingGiven
  | help
  | version
  deriving DecidableEq, Repr

inductive Flag where
  | verbose
  | help
  | version
  deriving DecidableEq, Repr

/-- What a value is for. -/
inductive Slot where
  | manifest
  | out
  | fragment
  | late
  | currentCrate
  | format
  deriving DecidableEq, Repr

namespace Slot

/-- Whether more than one value may be given. -/
def repeats : Slot → Bool
  | .fragment | .late => true
  | _ => false

/-- Whether a value will do: the names of the formats are fixed, and paths are not empty. -/
def accepts : Slot → Text → Bool
  | .currentCrate, _ => true
  | .format, value => value == "html".toList || value == "text".toList
  | _, value => !value.isEmpty

end Slot

inductive Switch where
  | flag (f : Flag)
  | option (slot : Slot)
  deriving DecidableEq, Repr

/-- The options and files that may stand at one level of a command line. -/
structure Level where
  longs : List (Text × Switch)
  shorts : List (Char × Switch)
  /-- What the arguments that are no options are for. -/
  files : Option Slot

namespace Level

def root : Level where
  longs := [("verbose".toList, .flag .verbose), ("help".toList, .flag .help),
    ("version".toList, .flag .version)]
  shorts := [('v', .flag .verbose), ('h', .flag .help), ('V', .flag .version)]
  files := none

def emit : Level where
  longs := [("verbose".toList, .flag .verbose), ("help".toList, .flag .help),
    ("out".toList, .option .out)]
  shorts := [('v', .flag .verbose), ('h', .flag .help), ('o', .option .out)]
  files := some .manifest

def render : Level where
  longs := [("verbose".toList, .flag .verbose), ("help".toList, .flag .help),
    ("late".toList, .option .late), ("current-crate".toList, .option .currentCrate),
    ("format".toList, .option .format)]
  shorts := [('v', .flag .verbose), ('h', .flag .help)]
  files := some .fragment

end Level

/-- What has been read at one level. -/
structure Reading where
  verbose : Bool := false
  /-- The values that are settled, in order. -/
  values : List (Slot × Text) := []
  /-- The values that wait, of one slot. -/
  waiting : Option (Slot × List Text) := none
  deriving DecidableEq, Repr

namespace Reading

def valuesOf (r : Reading) (slot : Slot) : List Text :=
  (r.values.filter (·.1 = slot)).map Prod.snd

/-- Settles the values that wait. -/
def settle (r : Reading) : Except Refusal Reading :=
  match r.waiting with
  | none => .ok r
  | some (slot, values) =>
    if values.isEmpty then .error .invalidValue
    else if !slot.repeats && !(r.valuesOf slot).isEmpty then .error .givenTwice
    else if values.all slot.accepts then
      .ok { r with values := r.values ++ values.map (slot, ·), waiting := none }
    else .error .invalidValue

def setFlag (r : Reading) (f : Flag) : Except Refusal Reading := do
  let r ← r.settle
  match f with
  | .help => .error .help
  | .version => .error .version
  | .verbose => if r.verbose then .error .givenTwice else .ok { r with verbose := true }

/-- Lets values wait for a slot, after settling those that wait. -/
def await (r : Reading) (slot : Slot) (values : List Text) : Except Refusal Reading := do
  let r ← r.settle
  pure { r with waiting := some (slot, values) }

/-- Takes a value that is attached to its option. -/
def attach (r : Reading) (slot : Slot) (value : Text) : Except Refusal Reading := do
  (← r.await slot [value]).settle

/-- Takes a file; files that follow one another wait together. -/
def addFile (r : Reading) (slot : Slot) (file : Text) : Except Refusal Reading :=
  match r.waiting with
  | some (waiting, files) =>
    if waiting = slot then .ok { r with waiting := some (slot, files ++ [file]) }
    else r.await slot [file]
  | none => r.await slot [file]

/-- Whether another file may be given. -/
def hasRoom (r : Reading) (slot : Slot) : Bool :=
  slot.repeats || ((r.valuesOf slot).isEmpty && r.waiting.all (·.1 != slot))

end Reading

/-- Reads a cluster of short options; answers also whether the next argument is awaited as a
value. -/
def readShorts (level : Level) (r : Reading) : Text → Except Refusal (Reading × Bool)
  | [] => .ok (r, false)
  | c :: rest =>
    match level.shorts.lookup c with
    | none => .error .unknownArgument
    | some (.flag f) => do readShorts level (← r.setFlag f) rest
    | some (.option slot) =>
      match rest with
      | [] => do pure (← r.await slot [], true)
      | '=' :: value => do pure (← r.attach slot value, false)
      | value => do pure (← r.attach slot value, false)

/-- Reads a long option from behind its dashes; answers also whether the next argument is awaited as
a value. -/
def readLong (level : Level) (r : Reading) (s : Text) : Except Refusal (Reading × Bool) :=
  let name := s.takeWhile (· != '=')
  let hasValue := name.length < s.length
  let value := s.drop (name.length + 1)
  match level.longs.lookup name with
  | none => .error .unknownArgument
  | some (.flag f) =>
    if hasValue then .error .flagWithValue else do pure (← r.setFlag f, false)
  | some (.option slot) => do
    if hasValue then pure (← r.attach slot value, false) else pure (← r.await slot [], true)

/-- The dashed argument that an argument is, if it is one: long or short, from behind the dashes. -/
def dashed? : Text → Option (Bool × Text)
  | '-' :: '-' :: name => some (true, name)
  | ['-'] => none
  | '-' :: cluster => some (false, cluster)
  | _ => none

/-- Reads a dashed argument. -/
def readDashed (level : Level) (r : Reading) : Bool × Text → Except Refusal (Reading × Bool)
  | (true, name) => readLong level r name
  | (false, cluster) => readShorts level r cluster

/-- Takes an argument as a file. -/
def takeFile (level : Level) (r : Reading) (file : Text) : Except Refusal Reading :=
  match level.files with
  | none => .error .unknownArgument
  | some slot => if r.hasRoom slot then r.addFile slot file else .error .unknownArgument

/-- Reads the arguments behind a command. -/
def readArguments (level : Level) (onlyFiles awaiting : Bool) (r : Reading) :
    List Text → Except Refusal Reading
  | [] => r.settle
  | argument :: rest => do
    if onlyFiles then readArguments level true false (← takeFile level r argument) rest
    else if argument = "--".toList then readArguments level true false r rest
    else
      match dashed? argument with
      | some dashed =>
        let (r, awaiting) ← readDashed level r dashed
        readArguments level false awaiting r rest
      | none =>
        if awaiting then
          let waiting := r.waiting.map fun (slot, values) => (slot, values ++ [argument])
          readArguments level false false { r with waiting } rest
        else readArguments level false false (← takeFile level r argument) rest

def emitRequest (r : Reading) : Except Refusal Request :=
  match r.valuesOf .manifest with
  | [] => .error .missingManifest
  | manifest :: _ => .ok (.emit manifest ((r.valuesOf .out).head?.getD ['.']))

def renderRequest (r : Reading) : Request :=
  .render {
    early := r.valuesOf .fragment
    late := r.valuesOf .late
    currentCrate := (r.valuesOf .currentCrate).head?
    format := if (r.valuesOf .format).head? = some "html".toList then .html else .text }

inductive CommandName where
  | emit
  | render
  | help
  deriving DecidableEq, Repr

def CommandName.ofWord? (s : Text) : Option CommandName :=
  [("emit".toList, CommandName.emit), ("render".toList, .render), ("help".toList, .help)].lookup s

/-- What asking for help on some commands comes to: only one command may be named, and it has to be
known. -/
def helpOn : List Text → Refusal
  | [] => .help
  | [command] => if (CommandName.ofWord? command).isSome then .help else .unknownCommand
  | _ => .unknownCommand

/-- Reads a command line from its root, where only flags may stand before the command. -/
def readRoot (onlyFiles : Bool) (r : Reading) : List Text → Except Refusal Invocation
  | [] => .error (if r.verbose then .missingCommand else .nothingGiven)
  | argument :: rest =>
    match onlyFiles, CommandName.ofWord? argument with
    | true, some _ => .error .unknownArgument
    | true, none => .error .unknownCommand
    | false, some .help => .error (helpOn rest)
    | false, some .emit => do
      let s ← readArguments Level.emit false false {} rest
      pure ⟨r.verbose || s.verbose, ← emitRequest s⟩
    | false, some .render => do
      let s ← readArguments Level.render false false {} rest
      pure ⟨r.verbose || s.verbose, renderRequest s⟩
    | false, none =>
      if argument = "--".toList then readRoot true r rest
      else
        match dashed? argument with
        | some dashed => do readRoot false (← readDashed Level.root r dashed).1 rest
        | none => .error .unknownCommand

/-- Reads the arguments of the program. -/
def parse (arguments : List Text) : Except Refusal Invocation := readRoot false {} arguments

end Implementors.CommandLine
