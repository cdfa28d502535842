import Tangle.Comment
import Tangle.Markdown.Block
import Tangle.Tag

/-!
# The walk through a document and its comments

Comments are documents too: what stands between the delimiters is parsed again, and its code blocks
take the place of the comment. `findings` says so by recursion; `drain` does it with a list of the
blocks that are still to be looked at, the innermost first, so that nesting costs heap and not call
depth.

An interior has fewer angle brackets than the fragment its comment stands in, because the delimiter
that was taken off held one and the parser makes none up. Both forms of the walk end for that
reason.
-/

namespace Tangle

open Markdown (Block parseBlocks)

/-- A code block as extraction sees it. -/
structure Visit where
  tags : List Text
  literal : Text
  deriving DecidableEq, Repr

/-- What a walk comes upon. -/
inductive Finding where
  | code (visit : Visit)
  /-- A comment that was left out because it lies deeper than `limit` levels. -/
  | tooDeep (limit : Nat)
  deriving DecidableEq, Repr

namespace Finding

def visit? : Finding → Option Visit
  | code visit => some visit
  | tooDeep _ => none

/-- The limit that made the walk leave out a comment. -/
def limit? : Finding → Option Nat
  | code _ => none
  | tooDeep limit => some limit

end Finding

/-- The code blocks among the findings. -/
def visits (findings : List Finding) : List Visit := findings.filterMap Finding.visit?

/-- The text of a warning about a comment that was left out. -/
def tooDeepMessage (limit : Nat) : String :=
  s!"Skipping nested HTML comment: HTML comments nested deeper than {limit} levels"

/-- The warnings among the findings. -/
def warnings (findings : List Finding) : List String :=
  (findings.filterMap Finding.limit?).map tooDeepMessage

/-- How many angle brackets the text has. -/
def angles (s : Text) : Nat := s.countP fun c => c = '<' || c = '>'

/-- How far a walk goes into comments. -/
structure Walker where
  includeComments : Bool := true
  /-- How many comments may enclose a block; any number if there is no limit. -/
  maxDepth : Option Nat := none
  deriving DecidableEq, Repr

namespace Walker

/-- What an HTML block at the given depth has inside. -/
inductive Inside where
  /-- Not a comment, or comments are not looked into. -/
  | nothing
  | tooDeep (limit : Nat)
  | fragment (s : Text)

/-- Looks into an HTML block whose interior would lie at `depth`. -/
def lookInside (w : Walker) (depth : Nat) (literal : Text) : Inside :=
  if w.includeComments then
    match Comment.interior? literal, w.maxDepth with
    | none, _ => .nothing
    | some s, none => .fragment s
    | some s, some limit => if depth > limit then .tooDeep limit else .fragment s
  else .nothing

/-- The findings in a fragment that `depth` comments enclose. -/
def findings (w : Walker) (depth : Nat) (s : Text) : List Finding :=
  (parseBlocks s).flatMap fun
    | .code info literal => [.code ⟨parseTags info, literal⟩]
    | .html literal =>
      match w.lookInside (depth + 1) literal with
      | .nothing => []
      | .tooDeep limit => [.tooDeep limit]
      | .fragment s' => if angles s' < angles s then w.findings (depth + 1) s' else []
termination_by angles s

/-- A block that has not been looked at yet, and how many comments enclose it. -/
structure Pending where
  depth : Nat
  block : Block

/-- The blocks of a fragment. -/
def Pending.ofFragment (depth : Nat) (s : Text) : List Pending :=
  (parseBlocks s).map fun block => ⟨depth, block⟩

/-- The findings in the pending blocks, up to the first comment to look into. From there `enter`
goes on, with the blocks of the comment in front of those behind it. -/
def resume (w : Walker) (enter : List Pending → List Finding) : List Pending → List Finding
  | [] => []
  | ⟨_, .code info literal⟩ :: rest => .code ⟨parseTags info, literal⟩ :: w.resume enter rest
  | ⟨depth, .html literal⟩ :: rest =>
    match w.lookInside (depth + 1) literal with
    | .nothing => w.resume enter rest
    | .tooDeep limit => .tooDeep limit :: w.resume enter rest
    | .fragment s => enter (Pending.ofFragment (depth + 1) s ++ rest)

/-- The findings in the pending blocks. Entering a comment uses up one of the angle brackets of the
document. -/
def drain (w : Walker) : Nat → List Pending → List Finding
  | 0 => w.resume fun _ => []
  | brackets + 1 => w.resume (w.drain brackets)

/-- The findings in a document. -/
def walk (w : Walker) (document : Text) : List Finding :=
  w.drain (angles document) (Pending.ofFragment 0 document)

end Walker

end Tangle
