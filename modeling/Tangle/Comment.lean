import Tangle.Text

/-!
# HTML comments

A raw HTML block is a comment if it begins with the opening delimiter or ends with the closing one;
either may be missing, since a comment can be left open at the end of a document and the tail of one
can surface as a block of its own.
-/

namespace Tangle.Comment

def opening : Text := ['<', '!', '-', '-']
def closing : Text := ['-', '-', '>']

/-- What a comment has between its delimiters. The opening delimiter is taken off first, so that the
two never share a character. -/
def interior? (literal : Text) : Option Text :=
  let trimmed := literal.trim
  match Text.dropPrefix? opening trimmed with
  | some body => some ((Text.dropSuffix? closing body).getD body)
  | none => Text.dropSuffix? closing trimmed

end Tangle.Comment
