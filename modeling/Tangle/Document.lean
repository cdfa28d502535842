import Tangle.Extract
import Tangle.Files.Access

/-!
# Reading documents

Documents are read as a whole and decoded whatever their bytes are. Several of them can be read
independently of each other; the results come back in the order of the inputs, and of the documents
that cannot be read the first one is reported.
-/

namespace Tangle

/-- Why a document could not be read. -/
structure ReadError where
  path : Text
  cause : FileError
  deriving DecidableEq, Repr

def ReadError.message (e : ReadError) : String :=
  s!"Failed to read {String.ofList e.path}: {e.cause.message}"

/-- When documents are processed independently of each other. -/
structure BatchConfig where
  enabled : Bool := true
  /-- The least number of documents for which it is worth it. -/
  minFileCount : Nat := 2
  deriving DecidableEq, Repr

/-- Whether this many documents are processed independently. -/
def BatchConfig.independent (c : BatchConfig) (count : Nat) : Bool :=
  c.enabled && c.minFileCount ≤ count

/-- All results if there are only results, otherwise the first error. The warnings of a result are
kept even if it comes to nothing. -/
def Logged.collect {ε α : Type} : List (Logged (Except ε α)) → Logged (Except ε (List α))
  | [] => ⟨.ok [], []⟩
  | r :: rest =>
    let others := collect rest
    let all : Except ε (List α) := match r.value with
      | .error e => .error e
      | .ok a => others.value.map fun as => a :: as
    ⟨all, r.warnings ++ others.warnings⟩

section

variable {m : Type → Type} [Monad m]

/-- Applies `f` to every path, one after the other, up to the first that fails. -/
def processInTurn {ε α : Type} (f : Text → m (Logged (Except ε α))) :
    List Text → m (Logged (Except ε (List α)))
  | [] => pure ⟨.ok [], []⟩
  | path :: rest => do
    let r ← f path
    match r.value with
    | .error e => pure ⟨.error e, r.warnings⟩
    | .ok a =>
      let others ← processInTurn f rest
      pure ⟨others.value.map fun as => a :: as, r.warnings ++ others.warnings⟩

/-- Applies `f` to every path, whether some fail or not. -/
def processIndependently {ε α : Type} (f : Text → m (Logged (Except ε α))) (paths : List Text) :
    m (Logged (Except ε (List α))) := do
  return Logged.collect (← paths.mapM f)

/-- Applies `f` to every path in the way that the configuration asks for. -/
def process {ε α : Type} (c : BatchConfig) (f : Text → m (Logged (Except ε α)))
    (paths : List Text) : m (Logged (Except ε (List α))) :=
  if c.independent paths.length then processIndependently f paths else processInTurn f paths

variable [FileAccess m]

/-- The text of the document under a path. -/
def readDocument (path : Text) : m (Except ReadError Text) := do
  match ← FileAccess.read path with
  | .ok bytes => pure (.ok (Text.ofBytesLossy bytes))
  | .error e => pure (.error ⟨path, e⟩)

/-- Applies an extraction to the document under a path. -/
def extractFile {α : Type} (extract : Text → Logged α) (path : Text) :
    m (Logged (Except ReadError α)) := do
  match ← readDocument path with
  | .error e => pure ⟨.error e, []⟩
  | .ok document => pure ⟨.ok (extract document).value, (extract document).warnings⟩

end

end Tangle
