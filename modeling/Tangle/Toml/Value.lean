import Tangle.Decimal.Shortest

/-!
# TOML values
-/

namespace Tangle.Toml

/-- A floating-point value. -/
inductive Real where
  | finite (negative : Bool) (magnitude : Decimal.Binary)
  | infinite (negative : Bool)
  | nan
  deriving DecidableEq, Repr

def Real.display : Real → Text
  | .finite negative b => (if negative then ['-'] else []) ++ b.display
  | .infinite negative => (if negative then ['-'] else []) ++ ['i', 'n', 'f']
  | .nan => ['N', 'a', 'N']

inductive Value where
  | string (s : Text)
  | integer (n : Int)
  | real (x : Real)
  | boolean (b : Bool)
  | datetime (s : Text)
  | array (elements : List Value)
  /-- Keys are distinct; their order is the order in which they were written. -/
  | table (entries : List (Text × Value))
  deriving Repr

end Tangle.Toml
