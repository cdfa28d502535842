import Tangle.Files.Path
import Tangle.Text.Utf8
import Tangle.WritePolicy

/-!
# A tree of files

Directories and files under one root, and what the operations on them do. A path is followed part by
part from the current directory; `.` and `..` go where they always go, and a path may fail at any
part that is missing or is a file. Nothing here refuses access: modes are kept and not looked at.
-/

namespace Tangle

/-- Why an operation on files fails. -/
inductive FileError where
  | notFound
  | exists
  | notDirectory
  | isDirectory
  | nameTooLong
  /-- The path has a NUL character. -/
  | nulInPath
  | notUtf8
  /-- Any other failure of the system that holds the files. -/
  | other (text : String)
  deriving DecidableEq, Repr

def FileError.message : FileError → String
  | .notFound => "No such file or directory (os error 2)"
  | .exists => "File exists (os error 17)"
  | .notDirectory => "Not a directory (os error 20)"
  | .isDirectory => "Is a directory (os error 21)"
  | .nameTooLong => "File name too long (os error 36)"
  | .nulInPath => "file name contained an unexpected NUL byte"
  | .notUtf8 => "stream did not contain valid UTF-8"
  | .other text => text

/-- The names on the way from the root to a file or directory. -/
abbrev Location := List Text

inductive Entry where
  | directory
  /-- The mode says who may read, write and execute the file. -/
  | file (mode : Nat) (content : List UInt8)
  deriving DecidableEq, Repr

/-- Files and directories under their locations. The root is always there and is not listed. -/
structure FileTree where
  entries : List (Location × Entry)
  deriving DecidableEq, Repr

namespace FileTree

def empty : FileTree := ⟨[]⟩

/-- What is at a location. -/
def find? (t : FileTree) (l : Location) : Option Entry :=
  if l = [] then some .directory else (t.entries.find? fun e => e.1 = l).map Prod.snd

/-- Puts an entry at a location, in the place of what is there. -/
def set (t : FileTree) (l : Location) (entry : Entry) : FileTree := ⟨go t.entries⟩
where
  go : List (Location × Entry) → List (Location × Entry)
    | [] => [(l, entry)]
    | (k, e) :: rest => if k = l then (k, entry) :: rest else (k, e) :: go rest

/-! ## Following paths -/

/-- The longest name there can be, in bytes. -/
def maxName : Nat := 255

/-- The longest path there can be, in bytes. -/
def maxPath : Nat := 4095

/-- The faults that a path has whatever the tree is. -/
def checkPath (p : Text) : Except FileError Unit :=
  if '\x00' ∈ p then .error .nulInPath
  else if p = [] then .error .notFound
  else if p.byteLength > maxPath then .error .nameTooLong
  else .ok ()

/-- Follows parts of a path from a location. -/
def follow (t : FileTree) (here : Location) : List Text → Except FileError Location
  | [] => .ok here
  | part :: rest =>
    match t.find? here with
    | some .directory =>
      if part = ['.'] then follow t here rest
      else if part = ['.', '.'] then follow t here.dropLast rest
      else if part.byteLength > maxName then .error .nameTooLong
      else
        match t.find? (here ++ [part]) with
        | some _ => follow t (here ++ [part]) rest
        | none => .error .notFound
    | _ => .error .notDirectory

/-- Where following a path begins. -/
def origin (cwd : Location) (p : Text) : Location := if Path.isAbsolute p then [] else cwd

/-- What a path leads to. A slash at its end asks for a directory. -/
def lookup (t : FileTree) (cwd : Location) (p : Text) : Except FileError (Location × Entry) :=
  match checkPath p with
  | .error e => .error e
  | .ok () =>
    match t.follow (origin cwd p) (Path.parts p) with
    | .error e => .error e
    | .ok l =>
      match t.find? l with
      | none => .error .notFound
      | some .directory => .ok (l, .directory)
      | some entry => if Path.endsInSlash p then .error .notDirectory else .ok (l, entry)

/-- The directory that a path's last part lies in, and that part; no part if the path is the
root. -/
def lookupParent (t : FileTree) (cwd : Location) (p : Text) :
    Except FileError (Location × Option Text) :=
  match checkPath p with
  | .error e => .error e
  | .ok () =>
    match t.follow (origin cwd p) (Path.parts p).dropLast with
    | .error e => .error e
    | .ok dir =>
      match t.find? dir with
      | some .directory => .ok (dir, (Path.parts p).getLast?)
      | _ => .error .notDirectory

/-- Whether a part of a path is not a name. -/
def isDots (part : Text) : Bool := part = ['.'] || part = ['.', '.']

/-! ## Operations -/

/-- The bytes of the file that a path leads to. -/
def read (t : FileTree) (cwd : Location) (p : Text) : Except FileError (List UInt8) :=
  match t.lookup cwd p with
  | .error e => .error e
  | .ok (_, .directory) => .error .isDirectory
  | .ok (_, .file _ content) => .ok content

/-- Whether a path leads to something. -/
def holds (t : FileTree) (cwd : Location) (p : Text) : Bool := (t.lookup cwd p).isOk

/-- Whether a path leads to a file. -/
def holdsFile (t : FileTree) (cwd : Location) (p : Text) : Bool :=
  match t.lookup cwd p with
  | .ok (_, .file _ _) => true
  | _ => false

/-- Whether a path leads to a directory. -/
def holdsDirectory (t : FileTree) (cwd : Location) (p : Text) : Bool :=
  match t.lookup cwd p with
  | .ok (_, .directory) => true
  | _ => false

/-- Makes the directory that a path names. -/
def makeDirectory (t : FileTree) (cwd : Location) (p : Text) : Except FileError FileTree :=
  match t.lookupParent cwd p with
  | .error e => .error e
  | .ok (_, none) => .error .exists
  | .ok (dir, some name) =>
    if isDots name then .error .exists
    else if name.byteLength > maxName then .error .nameTooLong
    else
      match t.find? (dir ++ [name]) with
      | some _ => .error .exists
      | none => .ok (t.set (dir ++ [name]) .directory)

/-- The mode of a created file: of the permissions asked for those that the mask leaves. The bits
above these (set-id and sticky) are not kept, since the system may clear them whenever a file is
written. -/
def grantedMode (umask mode : Nat) : Nat := mode &&& (0o777 ^^^ (umask &&& 0o777))

/-- The fault of writing where a directory is. -/
def occupied : WritePolicy → FileError
  | .createNew => .exists
  | _ => .isDirectory

/-- Opens a file at a location for writing. The mode is for a file that is created. -/
def openAt (t : FileTree) (l : Location) (policy : WritePolicy) (mode : Nat) :
    Except FileError FileTree :=
  match t.find? l, policy with
  | none, _ => .ok (t.set l (.file mode []))
  | some .directory, policy => .error (occupied policy)
  | some (.file _ _), .append => .ok t
  | some (.file m _), .truncate => .ok (t.set l (.file m []))
  | some (.file _ _), .createNew => .error .exists

/-- Opens the file that a path names for writing, and gives its location. -/
def openFile (t : FileTree) (cwd : Location) (p : Text) (policy : WritePolicy) (mode : Nat) :
    Except FileError (Location × FileTree) :=
  match t.lookupParent cwd p with
  | .error e => .error e
  | .ok (_, none) => .error (occupied policy)
  | .ok (dir, some name) =>
    if isDots name then .error (occupied policy)
    else if Path.endsInSlash p then .error .isDirectory
    else if name.byteLength > maxName then .error .nameTooLong
    else (t.openAt (dir ++ [name]) policy mode).map fun t' => (dir ++ [name], t')

/-- Puts bytes behind those of the file at a location. -/
def extendAt (t : FileTree) (l : Location) (bytes : List UInt8) : FileTree :=
  match t.find? l with
  | some (.file mode old) => t.set l (.file mode (old ++ bytes))
  | _ => t

end FileTree

end Tangle
