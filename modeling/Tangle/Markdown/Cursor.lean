import Tangle.Markdown.Line

/-!
# A place in a line, counted in columns

Indentation is measured in columns and a tab reaches to the next multiple of four, so a tab can be
used up in part. A cursor is the text still ahead, the columns passed since the last tab stop, and
the columns of a begun tab that are still owed. Owed columns become spaces if the line turns out to
be text.
-/

namespace Tangle.Markdown

structure Cursor where
  rest : Text
  /-- Columns since the last tab stop. -/
  column : Nat
  /-- Columns of the last tab that nothing has used yet. -/
  owed : Nat

namespace Cursor

/-- The beginning of a line. -/
def start (s : Text) : Cursor := ⟨s, 0, 0⟩

/-- Passes up to `n` columns of spaces and tabs; the number is of the columns that were missing. -/
def skipText : Nat → Text → Nat → Nat × Cursor
  | column, ' ' :: s, n + 1 => skipText (column + 1) s n
  | column, '\t' :: s, n + 1 =>
    if 4 - column % 4 ≤ n + 1 then skipText 0 s (n + 1 - (4 - column % 4))
    else (0, ⟨s, 0, 4 - column % 4 - (n + 1)⟩)
  | column, s, n => (n, ⟨s, column, 0⟩)

/-- Passes up to `n` columns, owed ones first; the number is of the columns that were missing. -/
def skip (n : Nat) (c : Cursor) : Nat × Cursor :=
  if n ≤ c.owed then (0, { c with owed := c.owed - n })
  else skipText c.column c.rest (n - c.owed)

/-- Passes up to `n` columns; the number is of the columns passed. -/
def indent (n : Nat) (c : Cursor) : Nat × Cursor := (n - (c.skip n).1, (c.skip n).2)

/-- Passes every space and tab ahead. -/
def skipAll (c : Cursor) : Cursor :=
  { rest := c.rest.dropWhile fun d => d = ' ' || d = '\t', column := c.column, owed := 0 }

/-- Whether the next character ends the line. -/
def atLineEnd (c : Cursor) : Bool :=
  match c.rest with
  | [] => true
  | d :: _ => d = '\n' || d = '\r'

/-- Passes the character `d` if it is next. -/
def char? (d : Char) (c : Cursor) : Option Cursor :=
  match c.rest with
  | [] => none
  | e :: s => if e = d then some { c with rest := s, column := c.column + 1 } else none

theorem skipText_length_le (column : Nat) (s : Text) (n : Nat) :
    (skipText column s n).2.rest.length ≤ s.length := by
  fun_induction skipText column s n with
  | case1 column s n ih => exact Nat.le_trans ih (Nat.le_succ _)
  | case2 column s n h ih => exact Nat.le_trans ih (Nat.le_succ _)
  | case3 column s n h => simp
  | case4 column s n h₁ h₂ => simp

theorem skip_length_le (n : Nat) (c : Cursor) : (c.skip n).2.rest.length ≤ c.rest.length := by
  unfold skip
  split
  · simp
  · exact skipText_length_le ..

theorem skipAll_length_le (c : Cursor) : c.skipAll.rest.length ≤ c.rest.length :=
  dropWhile_length_le ..

theorem char?_length_lt {d : Char} {c c' : Cursor} (h : c.char? d = some c') :
    c'.rest.length < c.rest.length := by
  unfold char? at h
  split at h
  · simp at h
  · rename_i e s heq
    split at h
    · simp at h; subst h; simp [heq]
    · simp at h

end Cursor

end Tangle.Markdown
