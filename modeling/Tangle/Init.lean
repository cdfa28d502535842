import Tangle.Settings

/-!
# The default configuration file
-/

namespace Tangle

/-- Why a configuration file could not be created. -/
structure InitError where
  path : Text
  cause : FileError
  deriving DecidableEq, Repr

def InitError.message (e : InitError) : String :=
  s!"Failed to access file {String.ofList e.path}: {e.cause.message}"

/-- The lines of a configuration file that says what holds without one. -/
def defaultConfigLines : List String :=
  ["# mdextract configuration file",
   "",
   "[filter]",
   "# Only extract code blocks carrying all of these tags",
   "# tags = [\"ci\"]",
   "",
   "# Skip code blocks carrying any of these tags (wins over `tags`)",
   "# exclude-tags = [\"noci\"]",
   "",
   "# Do not look for code blocks hidden inside HTML comments",
   "exclude-comments = false",
   "",
   "# Stop unwrapping HTML comments nested deeper than this (unlimited by default)",
   "# max-comment-depth = 256",
   "",
   "[output]",
   "# Permission bits for files created by `mdextract multi` and `--output`",
   "file-mode = \"0600\"",
   "",
   "# What to do with files that already exist: append, truncate or create-new",
   "write-mode = \"append\""]

/-- The configuration file that says what holds without one. -/
def defaultConfigText : Text := defaultConfigLines.flatMap fun line => line.toList ++ ['\n']

/-- The mode of a file that is created without a wish for one. -/
def plainMode : Nat := 0o666

/-- Writes the default configuration under a path and tells whether it did. What is there already is
replaced only by force. -/
def createDefaultConfig {m : Type → Type} [Monad m] [FileAccess m] (path : Text) (force : Bool) :
    m (Except InitError Bool) := do
  if (← FileAccess.holds path) && !force then return .ok false
  match ← FileAccess.write path .truncate plainMode (Text.toBytes defaultConfigText) with
  | .ok () => return .ok true
  | .error e => return .error ⟨path, e⟩

end Tangle
