import Tangle.CommandLine.Usage
import Tangle.Settings

/-!
# Reading a command line

Arguments are read from left to right, first those in front of the command's name and then those of
the command. An option's value is only looked at when the next argument has been recognised, so an
unknown argument is reported before a bad value in front of it. What was given too often,
contradicts itself or is missing is found out at the end, for the command first.
-/

namespace Tangle.CommandLine

/-- What was given at one level of the command line. -/
structure Given where
  /-- The options, in the order in which they were first given. -/
  options : List OptionName := []
  config : Option Text := none
  flags : FilterFlags := {}
  output : Option Text := none
  files : List Text := []
  shell : Option Shell := none

/-- An argument that is not settled yet. -/
inductive Pending where
  | nothing
  /-- An option without its value. -/
  | awaiting (o : OptionName)
  | valued (o : OptionName) (value : Text)
  | positional (values : List Text)

/-- Why reading stops before its end. -/
inductive Interruption where
  | usage (e : UsageError)
  | help (command : Option Command)
  | version

/-- Reading one level of the command line. -/
structure Reader where
  command : Option Command
  given : Given := {}
  pending : Pending := .nothing

abbrev Reading := Except Interruption

def fail {α : Type} (e : UsageError) : Reading α := .error (.usage e)

/-! ## Values -/

/-- Reads a number of levels. It is a whole number of at most 64 bits, with or without a plus
sign. -/
def readDepth (s : Text) : Except String Nat :=
  match s with
  | [] => .error "cannot parse integer from empty string"
  | ['+'] => .error "invalid digit found in string"
  | '+' :: ds => go 0 ds
  | ds => go 0 ds
where
  go (n : Nat) : Text → Except String Nat
    | [] => .ok n
    | c :: s =>
      if c.isDigit then
        let n := n * 10 + (c.toNat - '0'.toNat)
        if n < UInt64.size then go n s else .error "number too large to fit in target type"
      else .error "invalid digit found in string"

/-- Takes over an option's value. -/
def Given.addValue (g : Given) (o : OptionName) (value : Text) : Reading Given :=
  let bad (reason : String) : Reading Given := fail (.badValue value o.display (some reason))
  let more (tags : Option (List Text)) : Option (List Text) :=
    some (tags.getD [] ++ value.splitOn ',')
  match o with
  | .config =>
    if value.isEmpty then fail (.missingValue o.display) else .ok { g with config := some value }
  | .tags => .ok { g with flags := { g.flags with tags := more g.flags.tags } }
  | .excludeTags => .ok { g with flags := { g.flags with excludeTags := more g.flags.excludeTags } }
  | .maxCommentDepth =>
    match readDepth value with
    | .ok n => .ok { g with flags := { g.flags with maxCommentDepth := some n } }
    | .error reason => bad reason
  | .fileMode =>
    match FileMode.parse value with
    | .ok mode => .ok { g with flags := { g.flags with fileMode := some mode } }
    | .error e => bad e.message
  | .writeMode =>
    match WritePolicy.parse? value with
    | some policy => .ok { g with flags := { g.flags with writeMode := some policy } }
    | none => bad (WritePolicy.unknownMessage value)
  | .output => .ok { g with output := some value }
  | _ => .ok g

/-- Notes that an option was given, which most may be only once. -/
def Given.note (g : Given) (o : OptionName) : Reading Given :=
  if g.options.contains o then
    if o.isRepeatable then .ok g else fail (.repeated o.display)
  else .ok { g with options := g.options ++ [o] }

/-- Takes over a positional argument. -/
def Given.addPositional (command : Option Command) (g : Given) (value : Text) : Reading Given :=
  match command, positionalName? command with
  | some .completions, some what =>
    match Shell.ofName? value with
    | some shell => .ok { g with shell := some shell }
    | none =>
      if value.isEmpty then fail (.missingValue what) else fail (.badValue value what none)
  | _, some what =>
    if value.isEmpty then fail (.missingValue what) else .ok { g with files := g.files ++ [value] }
  | _, none => .ok g

/-! ## Arguments -/

namespace Reader

/-- Takes over what is pending. -/
def settle (r : Reader) : Reading Reader :=
  match r.pending with
  | .nothing => .ok r
  | .awaiting o => fail (.missingValue o.display)
  | .valued o value => do
    let g ← (← r.given.note o).addValue o value
    return { r with given := g, pending := .nothing }
  | .positional values => do
    let g ← values.foldlM (Given.addPositional r.command) r.given
    return { r with given := g, pending := .nothing }

def options (r : Reader) : List OptionName := OptionName.ofCommand r.command

/-- Reads an option that takes no value. -/
def readSwitch (r : Reader) (o : OptionName) : Reading Reader := do
  let r ← r.settle
  match o with
  | .help => .error (.help r.command)
  | .version => .error .version
  | _ => return { r with given := ← r.given.note o }

/-- Reads an option with the value attached to it. -/
def readAttached (r : Reader) (o : OptionName) (value : Text) : Reading Reader := do
  let r ← r.settle
  return { r with given := ← (← r.given.note o).addValue o value }

/-- Reads an option whose value is the next argument. -/
def readAwaiting (r : Reader) (o : OptionName) : Reading Reader := do
  return { ← r.settle with pending := .awaiting o }

/-- Reads an argument with two hyphens, from behind them. -/
def readLong (r : Reader) (arg : Text) : Reading Reader :=
  let name := arg.takeWhile (· != '=')
  let value := arg.drop name.length
  match r.options.find? fun o => o.long.toList = name with
  | none => fail (.unexpectedArgument ('-' :: '-' :: name))
  | some o =>
    match o.valueName?, value with
    | none, [] => r.readSwitch o
    | none, _ :: v => fail (.unneededValue v o.display)
    | some _, [] => r.readAwaiting o
    | some _, _ :: v => r.readAttached o v

/-- Reads an argument with one hyphen, from behind it: letters of options, of which the last may
have its value attached. -/
def readShort (r : Reader) : Text → Reading Reader
  | [] => .ok r
  | c :: rest =>
    match r.options.find? fun o => o.short? = some c with
    | none => fail (.unexpectedArgument ['-', c])
    | some o =>
      match o.valueName?, rest with
      | none, rest => do readShort (← r.readSwitch o) rest
      | some _, [] => r.readAwaiting o
      | some _, '=' :: v => r.readAttached o v
      | some _, v => r.readAttached o v

/-- Whether another positional argument is welcome. -/
def takesPositional (r : Reader) : Bool :=
  match r.command, r.pending with
  | some .single, _ => true
  | some .multi, _ => true
  | some .completions, .positional _ => false
  | some .completions, _ => r.given.shell.isNone
  | _, _ => false

/-- Reads a positional argument; `escaped` if it stands behind a double hyphen. -/
def readPositional (r : Reader) (escaped : Bool) (arg : Text) : Reading Reader :=
  if r.takesPositional then
    match r.pending with
    | .positional values => .ok { r with pending := .positional (values ++ [arg]) }
    | _ => do return { ← r.settle with pending := .positional [arg] }
  else
    match r.command with
    | some _ => fail (.unexpectedArgument arg)
    | none =>
      if escaped && commandNames.contains (String.ofList arg) then fail (.unexpectedArgument arg)
      else fail (.unknownCommand arg)

/-- Reads one argument that is not behind a double hyphen. -/
def readArgument (r : Reader) (arg : Text) : Reading Reader :=
  match arg with
  | '-' :: '-' :: name => r.readLong name
  | '-' :: c :: rest => r.readShort (c :: rest)
  | _ =>
    match r.pending with
    | .awaiting o => .ok { r with pending := .valued o arg }
    | _ => r.readPositional false arg

/-- Reads the arguments of a command up to the end. -/
def readAll (r : Reader) : List Text → Reading Reader
  | [] => r.settle
  | arg :: rest =>
    if arg = ['-', '-'] then do (← rest.foldlM (fun r a => r.readPositional true a) r).settle
    else do readAll (← r.readArgument arg) rest

/-! ## Checks at the end -/

/-- Fails for the first option that contradicts another one. -/
def checkConflicts (r : Reader) : Reading Unit :=
  let clash := r.given.options.findSome? fun o =>
    match o.excludes? with
    | some other => if r.given.options.contains other then some (o, other) else none
    | none => none
  match clash with
  | some (o, other) => fail (.conflict o.display other.display)
  | none => .ok ()

/-- Fails if a command that needs files has none. -/
def checkFiles (r : Reader) : Reading Unit :=
  let check : Reading Unit :=
    if r.given.files.isEmpty then fail (.missingArguments ["<FILES>..."]) else .ok ()
  match r.command with
  | some .single => check
  | some .multi => check
  | _ => .ok ()

end Reader

/-! ## The whole command line -/

/-- What to extract from. -/
structure Extraction where
  files : List Text
  flags : FilterFlags
  failOnEmpty : Bool
  deriving DecidableEq, Repr

inductive Request where
  | single (e : Extraction) (output : Text)
  | multi (e : Extraction)
  | init (force : Bool)
  | completions (shell : Option Shell) (list : Bool)
  deriving DecidableEq, Repr

/-- A command line that is well-formed. -/
structure Invocation where
  config : Option Text := none
  noConfig : Bool := false
  verbose : Bool := false
  quiet : Bool := false
  request : Request
  deriving DecidableEq, Repr

/-- Reads the name of a command, or of commands, behind the word `help`. -/
def readHelp : List Text → Interruption
  | [] => .help none
  | [name] => if name = "help".toList then .help none else
    match Command.ofName? name with
    | some c => .help (some c)
    | none => .usage (.unknownCommand name)
  | name :: other :: _ =>
    match Command.ofName? name with
    | some _ => .usage (.unknownCommand other)
    | none => .usage (.unknownCommand name)

/-- What a command was asked to do. -/
def request (command : Command) (g : Given) : Request :=
  let has (o : OptionName) : Bool := g.options.contains o
  let extraction : Extraction :=
    { files := g.files
      flags := { g.flags with excludeComments := has .excludeComments }
      failOnEmpty := has .failOnEmpty }
  match command with
  | .single => .single extraction (g.output.getD ['-'])
  | .multi => .multi extraction
  | .init => .init (has .force)
  | .completions => .completions g.shell (has .list)

/-- Reads a command and its arguments, behind those in front of its name. -/
def readCommand (front : Reader) (command : Command) (args : List Text) : Reading Invocation := do
  let r ← ({ command := some command : Reader }).readAll args
  r.checkConflicts
  r.checkFiles
  let front ← front.settle
  front.checkConflicts
  let has (o : OptionName) : Bool := r.given.options.contains o || front.given.options.contains o
  return { config := r.given.config <|> front.given.config
           noConfig := has .noConfig
           verbose := has .verbose
           quiet := has .quiet
           request := request command r.given }

/-- The end of a command line without a command. -/
def finishFront (r : Reader) : Reading Invocation := do
  let r ← r.settle
  if r.given.options.isEmpty then fail .noArguments else fail .noCommand

/-- The end of a command line that has a double hyphen in front of the command's name. -/
def finishEscaped (r : Reader) : List Text → Reading Invocation
  | [] => finishFront r
  | arg :: _ => do
    let _ ← r.readPositional true arg
    fail .noCommand

/-- Whether the next argument can be the name of a command. -/
def expectsCommand (r : Reader) : Bool :=
  match r.pending with
  | .awaiting _ => false
  | _ => true

/-- Reads the arguments in front of the command's name, and then the command. -/
def readFront (r : Reader) : List Text → Reading Invocation
  | [] => finishFront r
  | arg :: rest =>
    match if expectsCommand r then Command.ofName? arg else none with
    | some command => readCommand r command rest
    | none =>
      if expectsCommand r && arg = "help".toList then .error (readHelp rest)
      else if arg = ['-', '-'] then finishEscaped r rest
      else do readFront (← r.readArgument arg) rest

/-- Reads a command line, without the name of the program. -/
def read (args : List Text) : Reading Invocation := readFront { command := none } args

end Tangle.CommandLine
