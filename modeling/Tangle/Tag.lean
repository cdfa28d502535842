import Tangle.Text

/-!
# Tags

The info string of a code block is a list of tags with spaces between them. Only the space character
separates; other blanks matter at the edges of a tag alone. A tag `file=PATH` names the file that a
block goes to and does not take part in filtering.
-/

namespace Tangle

/-- The tags of an info string, in order. -/
def parseTags (info : Text) : List Text :=
  ((info.splitOn ' ').map Text.trim).filter fun tag => !tag.isEmpty

/-- The beginning of a tag that names a file. -/
def filePrefix : Text := ['f', 'i', 'l', 'e', '=']

/-- The path that a file tag names. -/
def filePath? (tag : Text) : Option Text := Text.dropPrefix? filePrefix tag

/-- The path that the last file tag names, unless it is empty. -/
def destination? (tags : List Text) : Option Text :=
  (tags.filterMap filePath?).getLast?.filter fun path => !path.isEmpty

/-- The tags that do not name a file. -/
def plainTags (tags : List Text) : List Text := tags.filter fun tag => (filePath? tag).isNone

/-- Decides by its tags whether a block is extracted. -/
structure TagFilter where
  /-- Tags a block must carry, all of them. -/
  required : List Text := []
  /-- Tags a block must not carry, any of them. -/
  excluded : List Text := []
  deriving DecidableEq, Repr

/-- Whether a block with these tags passes. -/
def TagFilter.accepts (f : TagFilter) (tags : List Text) : Bool :=
  f.required.all (tags.contains ·) && !f.excluded.any (tags.contains ·)

end Tangle
