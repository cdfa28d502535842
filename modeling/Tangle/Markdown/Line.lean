import Tangle.Text

/-!
# Lines and character classes of Markdown

Block structure only knows ASCII blanks. Two notions of a line live side by side: prose ends at a
line feed, at a carriage return, or at both together, while the lines of code and raw HTML end at a
line feed alone.
-/

namespace Tangle.Markdown

/-- The blanks of block structure: tab, line feed, vertical tab, form feed, carriage return,
space. -/
def isSpacing (c : Char) : Bool := c = ' ' || ('\t' ≤ c && c ≤ '\r')

/-- The blanks that do not end a line. -/
def isInlineSpacing (c : Char) : Bool := c = ' ' || c = '\t' || c = '\x0b' || c = '\x0c'

/-- The ASCII punctuation characters, those a backslash can escape. -/
def isPunctuation (c : Char) : Bool :=
  ('!' ≤ c && c ≤ '/') || (':' ≤ c && c ≤ '@') || ('[' ≤ c && c ≤ '`') || ('\x7b' ≤ c && c ≤ '~')

/-- What follows the line end that the text begins with. The end of the text is a line end. -/
def afterLineEnd? : Text → Option Text
  | [] => some []
  | '\n' :: s => some s
  | '\r' :: '\n' :: s => some s
  | '\r' :: s => some s
  | _ => none

/-- What follows the line the text begins with, if that line is blank. -/
def afterBlankLine? (s : Text) : Option Text := afterLineEnd? (s.dropWhile isInlineSpacing)

/-- Whether the line the text begins with is blank. -/
def startsBlank (s : Text) : Bool := (afterBlankLine? s).isSome

/-- The text up to its first line feed, which is included, and what follows. -/
def splitLine : Text → Text × Text
  | [] => ([], [])
  | c :: s => if c = '\n' then ([c], s) else ((c :: (splitLine s).1), (splitLine s).2)

/-- What follows the prose line the text begins with. -/
def dropProseLine : Text → Text
  | [] => []
  | '\n' :: s => s
  | '\r' :: '\n' :: s => s
  | '\r' :: s => s
  | _ :: s => dropProseLine s

/-- A line of code or HTML as it is kept: a carriage return goes that stands just before the last
byte of the line. -/
def unifyLineEnd : Text → Text
  | [] => []
  | ['\r', c] => if c.utf8Size = 1 then [c] else ['\r', c]
  | c :: s => c :: unifyLineEnd s

/-- How often `c` is repeated at the beginning of the text. -/
def runLength (c : Char) : Text → Nat
  | [] => 0
  | d :: s => if d = c then runLength c s + 1 else 0

/-! ## How much is left

A reader that is given text passes at least one character of it, so what it leaves is shorter by
one; the bounds are written so that they hold of the empty text too. -/

theorem dropWhile_length_le (p : Char → Bool) (s : Text) : (s.dropWhile p).length ≤ s.length :=
  (List.dropWhile_sublist p).length_le

theorem afterLineEnd?_length_le {s r : Text} (h : afterLineEnd? s = some r) :
    r.length ≤ s.length - 1 := by
  unfold afterLineEnd? at h
  split at h <;> cases h <;> simp only [List.length_nil, List.length_cons] <;> omega

theorem afterBlankLine?_length_le {s r : Text} (h : afterBlankLine? s = some r) :
    r.length ≤ s.length - 1 := by
  have h₁ := afterLineEnd?_length_le h
  have h₂ := dropWhile_length_le isInlineSpacing s
  omega

theorem afterBlankLine?_getD_length_le (s : Text) :
    ((afterBlankLine? s).getD s).length ≤ s.length := by
  cases h : afterBlankLine? s with
  | none => exact Nat.le_refl _
  | some r => exact Nat.le_trans (afterBlankLine?_length_le h) (Nat.sub_le ..)

theorem splitLine_append (s : Text) : (splitLine s).1 ++ (splitLine s).2 = s := by
  induction s with
  | nil => rfl
  | cons c s ih => by_cases hc : c = '\n' <;> simp [splitLine, hc, ih]

theorem splitLine_length_le (s : Text) : (splitLine s).2.length ≤ s.length - 1 := by
  induction s with
  | nil => exact Nat.le_refl _
  | cons c s ih =>
    rw [splitLine]
    split
    · exact Nat.le_refl _
    · exact Nat.le_trans ih (Nat.sub_le ..)

theorem dropProseLine_length_le (s : Text) : (dropProseLine s).length ≤ s.length - 1 := by
  fun_induction dropProseLine s with
  | case1 => exact Nat.le_refl _
  | case2 s => exact Nat.le_refl _
  | case3 s => exact Nat.le_succ _
  | case4 s => exact Nat.le_refl _
  | case5 c s _ _ _ ih => exact Nat.le_trans ih (Nat.sub_le ..)

end Tangle.Markdown
