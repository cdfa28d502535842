import Tangle.Markdown.InfoString
import Tangle.Markdown.Interrupt

/-!
# Code and raw HTML

The two leaf blocks whose text is kept. Each reader takes the text from where the block's content
begins and gives back the lines of the block and the text behind it. A line of the block is what
stands behind its containers, with the columns of a tab used up in part written as spaces.
-/

namespace Tangle.Markdown

inductive Leaf where
  /-- A code block with its lines. An indented one has no info string. -/
  | code (info : Option Text) (lines : List Text)
  | html (lines : List Text)
  deriving DecidableEq, Repr

namespace Leaf

/-- A line as it is kept. -/
def lineText (owed : Nat) (line : Text) : Text := Text.spaces owed ++ unifyLineEnd line

/-- What follows the line end of the closing fence that begins here. At the end of the text an open
block counts as closed. -/
def afterClosingFence? (mark : Char) (width : Nat) : Text → Option Text
  | [] => some []
  | c :: s =>
    if runLength mark (c :: s) < width then none
    else afterLineEnd? (((c :: s).drop (runLength mark (c :: s))).dropWhile (· = ' '))

/-- The lines of a fenced code block, and what follows it. -/
def fenced (cs : List Container) (mark : Char) (width indent : Nat) (s : Text) :
    List Text × Text :=
  match s with
  | [] => ([], [])
  | c :: t =>
    if !Container.allContinued cs (c :: t) then ([], (afterBlankLine? (c :: t)).getD (c :: t))
    else
      let cur := ((Container.inside cs (c :: t)).skip indent).2
      let near := cur.skip (4 - indent)
      match if near.1 = 0 then none else afterClosingFence? mark width near.2.rest with
      | some rest => ([], rest)
      | none =>
        let (lines, rest) := fenced cs mark width indent (splitLine cur.rest).2
        (lineText cur.owed (splitLine cur.rest).1 :: lines, rest)
termination_by s.length
decreasing_by
  have h₁ := Container.inside_length_le cs (c :: t)
  have h₂ := Cursor.skip_length_le indent (Container.inside cs (c :: t))
  have h₃ := splitLine_length_le ((Container.inside cs (c :: t)).skip indent).2.rest
  rw [List.length_cons] at h₁ ⊢
  omega

/-- The lines of an indented code block, each with whether it is blank, and what follows them. The
flag is for the first line. -/
def indented (cs : List Container) (blank : Bool) (owed : Nat) (s : Text) :
    List (Bool × Text) × Text :=
  match s with
  | [] => ([], [])
  | c :: t =>
    let next := (splitLine (c :: t)).2
    let out := (blank, lineText owed (splitLine (c :: t)).1)
    let ahead := (Container.inside cs next).skip 4
    if !Container.allContinued cs next || (ahead.1 ≠ 0 && !ahead.2.atLineEnd) ||
        ahead.2.rest.isEmpty then
      ([out], next)
    else
      let (lines, rest) := indented cs (startsBlank ahead.2.rest) ahead.2.owed ahead.2.rest
      (out :: lines, rest)
termination_by s.length
decreasing_by
  have h₀ := splitLine_length_le (c :: t)
  have h₁ := Container.inside_length_le cs (splitLine (c :: t)).2
  have h₂ := Cursor.skip_length_le 4 (Container.inside cs (splitLine (c :: t)).2)
  rw [List.length_cons] at h₀ ⊢
  omega

/-- The lines without the blank ones at the end. -/
def dropBlankEnd (lines : List (Bool × Text)) : List Text :=
  ((lines.reverse.dropWhile Prod.fst).reverse).map Prod.snd

/-- Whether the last line is blank. -/
def endsBlank (lines : List (Bool × Text)) : Bool :=
  match lines.getLast? with
  | some (blank, _) => blank
  | none => false

/-- The lines of an HTML block that ends with the first line holding `closing`. -/
def htmlUntil (cs : List Container) (closing : Text) (owed : Nat) (s : Text) : List Text × Text :=
  match s with
  | [] => ([], [])
  | c :: t =>
    let line := (splitLine (c :: t)).1
    let next := (splitLine (c :: t)).2
    let cur := Container.inside cs next
    if !Container.allContinued cs next || closing.occursIn line || cur.rest.isEmpty then
      ([lineText owed line], next)
    else
      let (lines, rest) := htmlUntil cs closing cur.owed cur.rest
      (lineText owed line :: lines, rest)
termination_by s.length
decreasing_by
  have h₀ := splitLine_length_le (c :: t)
  have h₁ := Container.inside_length_le cs (splitLine (c :: t)).2
  rw [List.length_cons] at h₀ ⊢
  omega

/-- The lines of an HTML block that ends before a blank line. -/
def htmlUntilBlank (cs : List Container) (owed : Nat) (s : Text) : List Text × Text :=
  match s with
  | [] => ([], [])
  | c :: t =>
    let next := (splitLine (c :: t)).2
    let cur := Container.inside cs next
    let out := lineText owed (splitLine (c :: t)).1
    if !Container.allContinued cs next || startsBlank cur.rest then ([out], next)
    else
      let (lines, rest) := htmlUntilBlank cs cur.owed cur.rest
      (out :: lines, rest)
termination_by s.length
decreasing_by
  have h₀ := splitLine_length_le (c :: t)
  have h₁ := Container.inside_length_le cs (splitLine (c :: t)).2
  rw [List.length_cons] at h₀ ⊢
  omega

/-! ## How much is left -/

theorem afterClosingFence?_length_le {mark : Char} {width : Nat} {s r : Text}
    (h : afterClosingFence? mark width s = some r) : r.length ≤ s.length := by
  unfold afterClosingFence? at h
  split at h
  · cases h; exact Nat.le_refl _
  · rename_i c s
    split at h
    · cases h
    · have h₁ := afterLineEnd?_length_le h
      have h₂ := dropWhile_length_le (· = ' ') ((c :: s).drop (runLength mark (c :: s)))
      rw [List.length_drop] at h₂
      omega

theorem fenced_length_le (cs : List Container) (mark : Char) (width indent : Nat) (s : Text) :
    (fenced cs mark width indent s).2.length ≤ s.length := by
  fun_induction fenced cs mark width indent s with
  | case1 => exact Nat.le_refl _
  | case2 c t _ => exact afterBlankLine?_getD_length_le _
  | case3 c t _ cur near rest h =>
    split at h
    · cases h
    · have h₁ := Container.inside_length_le cs (c :: t)
      have h₂ := Cursor.skip_length_le indent (Container.inside cs (c :: t))
      have h₃ := Cursor.skip_length_le (4 - indent) cur
      have h₄ := afterClosingFence?_length_le h
      exact Nat.le_trans h₄ (Nat.le_trans h₃ (Nat.le_trans h₂ h₁))
  | case4 c t _ cur near _ lines rest h ih =>
    rw [h] at ih
    have h₁ := Container.inside_length_le cs (c :: t)
    have h₂ : cur.rest.length ≤ _ := Cursor.skip_length_le indent (Container.inside cs (c :: t))
    have h₃ := splitLine_length_le cur.rest
    have h₄ : rest.length ≤ (splitLine cur.rest).2.length := ih
    show rest.length ≤ (c :: t).length
    omega

theorem indented_length_le (cs : List Container) (blank : Bool) (owed : Nat) (s : Text) :
    (indented cs blank owed s).2.length ≤ s.length - 1 := by
  fun_induction indented cs blank owed s with
  | case1 => exact Nat.le_refl _
  | case2 blank owed c t next out ahead _ => exact splitLine_length_le (c :: t)
  | case3 blank owed c t next out ahead _ lines rest h ih =>
    rw [h] at ih
    have h₀ : next.length ≤ _ := splitLine_length_le (c :: t)
    have h₁ := Container.inside_length_le cs next
    have h₂ : ahead.2.rest.length ≤ _ := Cursor.skip_length_le 4 (Container.inside cs next)
    have h₃ : rest.length ≤ ahead.2.rest.length - 1 := ih
    show rest.length ≤ (c :: t).length - 1
    omega

theorem htmlUntil_length_le (cs : List Container) (closing : Text) (owed : Nat) (s : Text) :
    (htmlUntil cs closing owed s).2.length ≤ s.length - 1 := by
  fun_induction htmlUntil cs closing owed s with
  | case1 => exact Nat.le_refl _
  | case2 owed c t line next cur _ => exact splitLine_length_le (c :: t)
  | case3 owed c t line next cur _ lines rest h ih =>
    rw [h] at ih
    have h₀ : next.length ≤ _ := splitLine_length_le (c :: t)
    have h₁ : cur.rest.length ≤ _ := Container.inside_length_le cs next
    have h₃ : rest.length ≤ cur.rest.length - 1 := ih
    show rest.length ≤ (c :: t).length - 1
    omega

theorem htmlUntilBlank_length_le (cs : List Container) (owed : Nat) (s : Text) :
    (htmlUntilBlank cs owed s).2.length ≤ s.length - 1 := by
  fun_induction htmlUntilBlank cs owed s with
  | case1 => exact Nat.le_refl _
  | case2 owed c t next cur out _ => exact splitLine_length_le (c :: t)
  | case3 owed c t next cur out _ lines rest h ih =>
    rw [h] at ih
    have h₀ : next.length ≤ _ := splitLine_length_le (c :: t)
    have h₁ : cur.rest.length ≤ _ := Container.inside_length_le cs next
    have h₃ : rest.length ≤ cur.rest.length - 1 := ih
    show rest.length ≤ (c :: t).length - 1
    omega

end Leaf

end Tangle.Markdown
