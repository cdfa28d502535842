import Tangle.Text

/-!
# Write policies

What becomes of a file that is there before it is written.
-/

namespace Tangle

inductive WritePolicy where
  /-- The new content goes behind what is there. -/
  | append
  /-- The new content takes the place of what is there. -/
  | truncate
  /-- A file that is there is left alone, and writing it fails. -/
  | createNew
  deriving DecidableEq, Repr

namespace WritePolicy

instance : Inhabited WritePolicy := ⟨append⟩

def all : List WritePolicy := [append, truncate, createNew]

def name : WritePolicy → String
  | append => "append"
  | truncate => "truncate"
  | createNew => "create-new"

/-- The policy with exactly this name. -/
def ofName? (name : Text) : Option WritePolicy := all.find? fun p => p.name.toList = name

/-- A letter in the spelling of the names: lower case, with a hyphen for an underscore. -/
def normalise (c : Char) : Char :=
  if 'A' ≤ c && c ≤ 'Z' then Char.ofNat (c.toNat + 32) else if c = '_' then '-' else c

/-- Reads a policy's name in any case, with hyphen or underscore, and blanks around it. -/
def parse? (text : Text) : Option WritePolicy := ofName? (text.trim.map normalise)

/-- Why a text is not a policy. -/
def unknownMessage (text : Text) : String :=
  s!"unknown write mode '{String.ofList text}' (expected append, truncate or create-new)"

end WritePolicy

end Tangle
