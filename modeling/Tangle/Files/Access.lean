import Tangle.Files.Tree

/-!
# Access to files

What the program asks of the place that holds its files. A workspace, a tree with a current
directory in it, answers by the rules of `FileTree`; the outermost layer of the program answers by
asking the operating system. Every operation on top of these is written once for both.

A file is opened and then written, and the second can fail when the first is done: the disk may be
full. What has arrived by then stays. A workspace knows beforehand which of its writes will break
off, so that what is proved for all workspaces is proved for all ways in which writes can fail.
-/

namespace Tangle

/-- A place that holds files, asked within `m`. -/
class FileAccess (m : Type → Type) where
  /-- A file that is open for writing. -/
  Handle : Type
  read (p : Text) : m (Except FileError (List UInt8))
  /-- Whether there is anything under the path. -/
  holds (p : Text) : m Bool
  holdsFile (p : Text) : m Bool
  holdsDirectory (p : Text) : m Bool
  makeDirectory (p : Text) : m (Except FileError Unit)
  /-- Opens a file for writing, with this mode if it is created. -/
  openFile (p : Text) (policy : WritePolicy) (mode : Nat) : m (Except FileError Handle)
  /-- Puts bytes behind those of an open file. When that fails, some of them may have arrived. -/
  extend (file : Handle) (bytes : List UInt8) : m (Except FileError Unit)

/-- How a write breaks off: so many of its bytes arrive, and why no more do. -/
structure Fault where
  arrived : Nat
  cause : FileError
  deriving DecidableEq, Repr

/-- A tree of files and what else the outcome of an operation on it depends on. -/
structure Workspace where
  tree : FileTree
  /-- The directory that relative paths begin in. -/
  cwd : Location := []
  /-- The permissions that created files do not get. -/
  umask : Nat := 0o022
  /-- The faults that the writes to come meet, if any, for the next one first. There are none beyond
  the list. -/
  faults : List (Option Fault) := []
  deriving DecidableEq, Repr

namespace Workspace

/-- Takes over the changed tree of an operation that succeeded. -/
def update (w : Workspace) : Except FileError FileTree → Except FileError Unit × Workspace
  | .ok t => (.ok (), { w with tree := t })
  | .error e => (.error e, w)

def openFile (w : Workspace) (p : Text) (policy : WritePolicy) (mode : Nat) :
    Except FileError Location × Workspace :=
  match w.tree.openFile w.cwd p policy (FileTree.grantedMode w.umask mode) with
  | .ok (l, t) => (.ok l, { w with tree := t })
  | .error e => (.error e, w)

/-- The fault that the next write meets. One that comes behind its last byte does not matter. -/
def nextFault? (w : Workspace) (bytes : List UInt8) : Option Fault :=
  w.faults.head?.join.filter fun fault => fault.arrived < bytes.length

def extend (w : Workspace) (l : Location) (bytes : List UInt8) :
    Except FileError Unit × Workspace :=
  match w.nextFault? bytes with
  | none => (.ok (), { w with tree := w.tree.extendAt l bytes, faults := w.faults.tail })
  | some fault =>
    (.error fault.cause,
      { w with tree := w.tree.extendAt l (bytes.take fault.arrived), faults := w.faults.tail })

instance : FileAccess (StateM Workspace) where
  Handle := Location
  read p := fun w => (w.tree.read w.cwd p, w)
  holds p := fun w => (w.tree.holds w.cwd p, w)
  holdsFile p := fun w => (w.tree.holdsFile w.cwd p, w)
  holdsDirectory p := fun w => (w.tree.holdsDirectory w.cwd p, w)
  makeDirectory p := fun w => w.update (w.tree.makeDirectory w.cwd p)
  openFile p policy mode := fun w => w.openFile p policy mode
  extend l bytes := fun w => w.extend l bytes

end Workspace

section

variable {m : Type → Type} [Monad m] [FileAccess m]

/-- Makes a directory after those it lies in, which follow it in the list. One that is there already
is as good as made. -/
def makeChain : List Text → m (Except FileError Unit)
  | [] => pure (.ok ())
  | p :: outer => do
    match ← FileAccess.makeDirectory p with
    | .ok () => pure (.ok ())
    | .error .notFound =>
      match ← makeChain outer with
      | .error e => pure (.error e)
      | .ok () =>
        match ← FileAccess.makeDirectory p with
        | .ok () => pure (.ok ())
        | .error e => settle p e
    | .error e => settle p e
where
  /-- Accepts the failure to make a directory that is there. -/
  settle (p : Text) (e : FileError) : m (Except FileError Unit) := do
    if e = .exists then
      if ← FileAccess.holdsDirectory p then return .ok ()
    return .error e

/-- The directories that have to be there for a directory to be made, itself in front. -/
def directoryChain (p : Text) : List Text :=
  (Path.ancestors (p.length + 1) p).filter fun q => (Path.parent? q).isSome

/-- Makes a directory and all directories it lies in. -/
def makeDirectories (p : Text) : m (Except FileError Unit) := makeChain (directoryChain p)

/-- Opens a file and puts bytes into it. -/
def FileAccess.write (p : Text) (policy : WritePolicy) (mode : Nat) (content : List UInt8) :
    m (Except FileError Unit) := do
  match ← openFile p policy mode with
  | .ok file => extend file content
  | .error e => pure (.error e)

end

end Tangle
