import Tangle.Text

/-!
# Paths

A path is text with slashes between its parts. Doubled slashes and parts that are a single dot have
no meaning, except for a dot in front.
-/

namespace Tangle.Path

/-- The parts between slashes that are not empty. -/
def parts (p : Text) : List Text := (p.splitOn '/').filter fun part => !part.isEmpty

def isAbsolute (p : Text) : Bool := p.head? = some '/'

def endsInSlash (p : Text) : Bool := p.getLast? = some '/'

/-- Takes what has no meaning off the end of the parts of a path, given from the last one. Only the
first part of a relative path, which comes last here, may be a dot that counts. -/
def dropVoid : List Text → List Text
  | [] => []
  | [part] => if part.isEmpty then [] else [part]
  | part :: before => if part.isEmpty || part = ['.'] then dropVoid before else part :: before

/-- The path of the directory that a path lies in, written as the path itself begins. The root and
the empty path lie in none. -/
def parent? (p : Text) : Option Text :=
  let root : Text := if isAbsolute p then ['/'] else []
  match dropVoid (p.splitOn '/').reverse with
  | [] => none
  | _ :: before =>
    match dropVoid before with
    | [] => some root
    | outer => some (['/'].intercalate outer.reverse)

/-- A path and all directories it lies in, the nearest first, as long as `n` allows. -/
def ancestors (n : Nat) (p : Text) : List Text :=
  match n with
  | 0 => []
  | n + 1 => p :: ((parent? p).map (ancestors n)).getD []

/-- The path `q` seen from the directory `p`. -/
def join (p q : Text) : Text :=
  if isAbsolute q || p.isEmpty then q
  else if endsInSlash p then p ++ q
  else p ++ '/' :: q

/-- The last part of a path without what follows its last dot, unless that dot comes first. -/
def stem (p : Text) : Text :=
  let name := (dropVoid (p.splitOn '/').reverse).head?.getD []
  match name.reverse.dropWhile (· != '.') with
  | [] => name
  | [_] => name
  | _ :: before => before.reverse

end Tangle.Path
