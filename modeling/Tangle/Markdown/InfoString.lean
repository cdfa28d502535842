import Tangle.Markdown.Entity
import Tangle.Markdown.Line

/-!
# Info strings

The words behind an opening code fence, with backslash escapes and character references resolved
and carriage returns removed.
-/

namespace Tangle.Markdown

/-- A backslash before punctuation goes, a character reference becomes its text. -/
def unescape : Text → Text
  | [] => []
  | '\\' :: d :: s => if isPunctuation d then d :: unescape s else '\\' :: unescape (d :: s)
  | '&' :: s =>
    match _h : Entity.reference? s with
    | some (text, rest) => text ++ unescape rest
    | none => '&' :: unescape s
  | '\r' :: s => unescape s
  | c :: s => c :: unescape s
termination_by s => s.length
decreasing_by
  · exact Nat.lt_succ_of_lt (Nat.lt_succ_self _)
  · exact Nat.lt_succ_self _
  · exact Nat.lt_succ_of_le (Entity.reference?_length_le _h)
  all_goals exact Nat.lt_succ_self _

/-- The info string in the rest of a fence's first line. -/
def infoString (line : Text) : Text :=
  unescape ((line.dropWhile isInlineSpacing).reverse.dropWhile isSpacing).reverse

end Tangle.Markdown
