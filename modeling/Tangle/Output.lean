import Tangle.Extract
import Tangle.FileMode
import Tangle.Files.Access

/-!
# Writing results

A single text goes to standard output or to one file; the texts of a file map go to one file for
each path, whose directories are made as needed.
-/

namespace Tangle

/-- Why a result could not be written. -/
structure WriteError where
  path : Text
  cause : FileError
  deriving DecidableEq, Repr

def WriteError.message (e : WriteError) : String :=
  s!"Failed to write {String.ofList e.path}: {e.cause.message}"

/-- Where a single text goes. -/
inductive OutputTarget where
  | stdout
  | file (path : Text)
  deriving DecidableEq, Repr

/-- A hyphen stands for standard output. -/
def OutputTarget.parse (value : Text) : OutputTarget :=
  if value = ['-'] then .stdout else .file value

/-- How files are written. -/
structure WriteStyle where
  policy : WritePolicy := .append
  mode : FileMode := .ownerOnly
  deriving DecidableEq, Repr

section

variable {m : Type → Type} [Monad m] [FileAccess m]

/-- Writes one file. -/
def writeFile (style : WriteStyle) (path content : Text) : m (Except WriteError Unit) := do
  match ← FileAccess.write path style.policy style.mode.bits content.toBytes with
  | .ok () => pure (.ok ())
  | .error e => pure (.error ⟨path, e⟩)

/-- Writes one file and makes the directories it lies in. -/
def writeEntry (style : WriteStyle) (path content : Text) : m (Except WriteError Unit) := do
  match (Path.parent? path).getD [] with
  | [] => writeFile style path content
  | c :: parent =>
    match ← makeDirectories (c :: parent) with
    | .ok () => writeFile style path content
    | .error e => pure (.error ⟨c :: parent, e⟩)

/-- Writes entries one after the other up to the first that fails; `written` are done already. -/
def writeEntries (style : WriteStyle) (written : Nat) :
    List (Text × Text) → m (Except WriteError Nat)
  | [] => pure (.ok written)
  | (path, content) :: rest => do
    match ← writeEntry style path content with
    | .ok () => writeEntries style (written + 1) rest
    | .error e => pure (.error e)

/-- Writes every text of a file map under its path; the answer is how many were written. -/
def writeFileMap (style : WriteStyle) (files : FileMap) : m (Except WriteError Nat) :=
  writeEntries style 0 files.entries

end

end Tangle
