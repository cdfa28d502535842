import Tangle.CommandLine.Help
import Tangle.CommandLine.Reader
import Tangle.Init
import Tangle.LogFilter

/-!
# The program

A command line is carried out in a place that holds files. The answer is what the program prints and
its exit status; a failure is one line on standard error. A command that extracts reads all its
documents before it writes anything.
-/

namespace Tangle

open CommandLine (Invocation Extraction Request)

/-- What the program finds around itself. -/
structure Environment where
  /-- The absolute path of the current directory. -/
  directory : Text
  /-- The path of the user's shell. -/
  shell : Option Text := none
  /-- The log specification. -/
  log : Option Text := none

/-- What a run prints and how it ends. -/
structure Report where
  status : Nat
  stdout : Text := []
  stderr : List String := []

/-- Why a command failed. -/
inductive Failure where
  | config (e : ConfigError)
  | read (e : ReadError)
  /-- A single text could not be written to the output that was named. -/
  | writeOutput (output : Text) (e : WriteError)
  | write (e : WriteError)
  | init (e : InitError)
  | noShell

/-- The message of a failure followed by those of its causes. -/
def Failure.message : Failure → String
  | .config (.unreadable path cause) =>
    s!"{(ConfigError.unreadable path cause).message}: {cause.message}"
  | .config e => e.message
  | .read e => s!"{e.message}: {e.cause.message}"
  | .writeOutput output e =>
    s!"Failed to write extracted code to {String.ofList output}: {e.message}: {e.cause.message}"
  | .write e => s!"{e.message}: {e.cause.message}"
  | .init e => s!"{e.message}: {e.cause.message}"
  | .noShell => "Could not detect a shell from $SHELL; pass one explicitly, " ++
      "e.g. `mdextract completions bash` (see --list)"

/-- What a command comes to when it does not fail. -/
structure Outcome where
  stdout : Text := []
  stderr : List String := []
  /-- Whether the command was to extract something and there was nothing. -/
  nothingExtracted : Bool := false

section

variable {m : Type → Type} [Monad m] [FileAccess m]

/-- The settings that the configuration and the flags give. -/
def resolveSettings (env : Environment) (inv : Invocation) (flags : FilterFlags) :
    m (Except Failure Settings) := do
  match ← loadConfig inv.config inv.noConfig env.directory with
  | .error e => return .error (.config e)
  | .ok (c, _) => return .ok (mergeSettings c flags)

/-- Applies an extraction to all documents, with the settings that hold. -/
def extractAll {α : Type} (env : Environment) (inv : Invocation) (e : Extraction)
    (extract : ExtractOptions → Text → Logged α) :
    m (Logged (Except Failure (Settings × List α))) := do
  match ← resolveSettings env inv e.flags with
  | .error failure => return ⟨.error failure, []⟩
  | .ok settings =>
    let r ← process {} (extractFile (extract settings.options)) e.files
    match r.value with
    | .error e => return ⟨.error (.read e), r.warnings⟩
    | .ok results => return ⟨.ok (settings, results), r.warnings⟩

/-- Extracts to one output. -/
def runSingle (env : Environment) (inv : Invocation) (e : Extraction) (output : Text) :
    m (Logged (Except Failure Outcome)) := do
  let r ← extractAll env inv e ExtractOptions.single
  match r.value with
  | .error failure => return ⟨.error failure, r.warnings⟩
  | .ok (settings, texts) =>
    let content := texts.flatten
    let nothingExtracted := content.isEmpty && e.failOnEmpty
    match OutputTarget.parse output with
    | .stdout => return ⟨.ok { stdout := content, nothingExtracted }, r.warnings⟩
    | .file path =>
      match ← writeFile settings.style path content with
      | .error e => return ⟨.error (.writeOutput output e), r.warnings⟩
      | .ok () => return ⟨.ok { nothingExtracted }, r.warnings⟩

/-- Extracts to the files that the blocks name. -/
def runMulti (env : Environment) (inv : Invocation) (e : Extraction) :
    m (Logged (Except Failure Outcome)) := do
  let r ← extractAll env inv e ExtractOptions.multi
  match r.value with
  | .error failure => return ⟨.error failure, r.warnings⟩
  | .ok (settings, maps) =>
    match ← writeFileMap settings.style (maps.foldl FileMap.merge .empty) with
    | .error e => return ⟨.error (.write e), r.warnings⟩
    | .ok written =>
      return ⟨.ok { nothingExtracted := written = 0 && e.failOnEmpty }, r.warnings⟩

/-- The file that the default configuration is written to. -/
def initPath : Text := ".mdextract.toml".toList

/-- Creates the default configuration in the current directory. -/
def runInit (force : Bool) : m (Logged (Except Failure Outcome)) := do
  match ← createDefaultConfig initPath force with
  | .error e => return ⟨.error (.init e), []⟩
  | .ok true =>
    let line := s!"Created default configuration file: {String.ofList initPath}\n"
    return ⟨.ok { stdout := line.toList }, []⟩
  | .ok false =>
    let line :=
      s!"Warning: {String.ofList initPath} already exists (use --force to overwrite)"
    return ⟨.ok { stderr := [line] }, []⟩

end

/-- Lines as text, each with its line end. -/
def textOfLines (lines : List String) : Text := lines.flatMap fun l => l.toList ++ ['\n']

/-- Prints a completion script, or the names of the shells that there is one for. -/
def runCompletions (env : Environment) (shell : Option Shell) (list : Bool) :
    Except Failure Outcome :=
  if list then
    .ok { stdout := textOfLines
            ("Available shells:" :: Shell.all.map fun s => s!"  {s.name}") }
  else
    match shell <|> env.shell.bind Shell.ofProgram? with
    | none => .error .noShell
    | some s => .ok { stdout := textOfLines (s.completionLines CommandLine.commandNames) }

/-- The origin of the messages about comments that were left out. -/
def walkerOrigin : String := "mdextract_lib::walker"

/-- What is logged: as the environment says, or else by the flags. -/
def logFilter (env : Environment) (inv : Invocation) : LogFilter × List String :=
  match env.log with
  | some spec => LogFilter.parse spec
  | none => (.upTo (if inv.verbose then .debug else if inv.quiet then .error else .warn), [])

/-- The lines that the log shows of warnings. -/
def logLines (f : LogFilter) (warnings : List String) : List String :=
  (warnings.filter fun w => f.shows .warn walkerOrigin.toList w.toList).map fun w =>
    s!"[WARN  {walkerOrigin}] {w}"

/-- The report on a command that came to an end. -/
def Report.ofOutcome (log : LogFilter × List String) (r : Logged (Except Failure Outcome)) :
    Report :=
  let logged := log.2 ++ logLines log.1 r.warnings
  match r.value with
  | .error failure => { status := 2, stderr := logged ++ [s!"Error: {failure.message}"] }
  | .ok outcome =>
    { status := if outcome.nothingExtracted then 1 else 0
      stdout := outcome.stdout
      stderr := logged ++ outcome.stderr }

/-- The version of the program. -/
def version : String := "0.3.0"

/-- The report on a command line that is not carried out. -/
def Report.ofInterruption : CommandLine.Interruption → Report
  | .usage .noArguments => { status := 2, stderr := CommandLine.helpLines none }
  | .usage e => { status := 2, stderr := e.lines }
  | .help command => { status := 0, stdout := textOfLines (CommandLine.helpLines command) }
  | .version => { status := 0, stdout := s!"mdextract {version}\n".toList }

section

variable {m : Type → Type} [Monad m] [FileAccess m]

/-- Carries out what a command line asks for. -/
def carryOut (env : Environment) (inv : Invocation) : m (Logged (Except Failure Outcome)) :=
  match inv.request with
  | .single e output => runSingle env inv e output
  | .multi e => runMulti env inv e
  | .init force => runInit force
  | .completions shell list => pure ⟨runCompletions env shell list, []⟩

/-- Runs the program with the given arguments. -/
def run (env : Environment) (args : List Text) : m Report := do
  match CommandLine.read args with
  | .error stop => return .ofInterruption stop
  | .ok inv => return .ofOutcome (logFilter env inv) (← carryOut env inv)

end

end Tangle
