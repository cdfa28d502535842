import Tangle.Config
import Tangle.Document
import Tangle.Output

/-!
# Where settings come from

A configuration is read from the file that is named, or else from the nearest one on the way from a
directory to the root, or else every setting has its default. Flags given on the command line
replace what the configuration says, field by field.
-/

namespace Tangle

/-- Why a configuration could not be loaded. -/
inductive ConfigError where
  | unreadable (path : Text) (cause : FileError)
  | invalid (path : Text) (cause : Config.ParseError)
  deriving DecidableEq, Repr

/-- What is said about a configuration that is not well-formed. -/
def Config.ParseError.message : Config.ParseError → String
  | .malformed => "toml syntax"
  | .wrong e => e.message

def ConfigError.message : ConfigError → String
  | .unreadable path cause =>
    s!"Failed to read config file at {String.ofList path}: {cause.message}"
  | .invalid path cause =>
    s!"Failed to parse config file at {String.ofList path}: {cause.message}"

/-- Reads a configuration from a text that comes from the file under `path`. -/
def Config.ofText (path document : Text) : Except ConfigError Config :=
  (Config.parse document).mapError (.invalid path)

/-- The names of configuration files, the preferred one first. -/
def configNames : List Text := [".mdextract.toml".toList, "mdextract.toml".toList]

/-- The entry that marks the directory above which no configuration is looked for. -/
def boundaryName : Text := ".git".toList

/-- How many directories are looked at. -/
def maxDiscoveryDepth : Nat := 100

section

variable {m : Type → Type} [Monad m] [FileAccess m]

/-- The first of the paths that is a file. -/
def firstFile : List Text → m (Option Text)
  | [] => pure none
  | p :: rest => do
    if ← FileAccess.holdsFile p then return some p
    firstFile rest

/-- The nearest configuration file on the way up from a directory, `levels` directories at most. -/
def discoverWithin (levels : Nat) (directory : Text) : m (Option Text) := do
  match levels with
  | 0 => return none
  | n + 1 =>
    match ← firstFile (configNames.map (Path.join directory)) with
    | some found => return some found
    | none =>
      if ← FileAccess.holds (Path.join directory boundaryName) then return none
      match Path.parent? directory with
      | some outer => discoverWithin n outer
      | none => return none

/-- The nearest configuration file on the way up from a directory. -/
def discoverConfig (start : Text) : m (Option Text) := discoverWithin maxDiscoveryDepth start

/-- The configuration in a file. -/
def readConfig (path : Text) : m (Except ConfigError Config) := do
  match ← FileAccess.read path with
  | .error e => return .error (.unreadable path e)
  | .ok bytes =>
    match Text.ofBytes? bytes with
    | none => return .error (.unreadable path .notUtf8)
    | some document => return Config.ofText path document

/-- The effective configuration and the file it comes from, if any: the one that is named, else the
nearest one unless none is wanted, else the default. -/
def loadConfig (explicit : Option Text) (ignore : Bool) (start : Text) :
    m (Except ConfigError (Config × Option Text)) := do
  match explicit with
  | some path => return (← readConfig path).map fun c => (c, some path)
  | none =>
    if ignore then return .ok ({}, none)
    match ← discoverConfig start with
    | some path => return (← readConfig path).map fun c => (c, some path)
    | none => return .ok ({}, none)

end

/-- The flags on the command line that say what to extract and how to write it. -/
structure FilterFlags where
  tags : Option (List Text) := none
  excludeTags : Option (List Text) := none
  excludeComments : Bool := false
  maxCommentDepth : Option Nat := none
  fileMode : Option FileMode := none
  writeMode : Option WritePolicy := none
  deriving DecidableEq, Repr

/-- What to extract and how to write it. -/
structure Settings where
  options : ExtractOptions
  style : WriteStyle
  deriving DecidableEq, Repr

/-- Settings from a configuration and flags. A list flag replaces its list. -/
def mergeSettings (c : Config) (flags : FilterFlags) : Settings :=
  let base := c.extractOptions
  { options :=
      { filter :=
          if flags.tags.isSome || flags.excludeTags.isSome then
            { required := Config.namedTags (flags.tags.getD base.filter.required)
              excluded := Config.namedTags (flags.excludeTags.getD base.filter.excluded) }
          else base.filter
        walker :=
          { includeComments := !flags.excludeComments && base.walker.includeComments
            maxDepth := flags.maxCommentDepth <|> base.walker.maxDepth } }
    style :=
      { policy := flags.writeMode.getD c.output.writeMode
        mode := flags.fileMode.getD c.output.fileMode } }

end Tangle
