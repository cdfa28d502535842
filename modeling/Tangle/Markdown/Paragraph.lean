import Tangle.Markdown.LinkDefinition

/-!
# Where a paragraph ends

Running text, a heading underlined on its last line, and a table all begin alike. None of them holds
a block, so the parser only has to find the text behind them.
-/

namespace Tangle.Markdown.Paragraph

/-- What follows the rows of a table: all lines up to one that begins another block. -/
def afterRows (cs : List Container) (line : Text) : Text :=
  match line with
  | [] => []
  | c :: t =>
    let row := (Container.inside cs (c :: t)).skipAll.rest
    if !Container.allContinued cs (c :: t) || blockInterrupts true row then c :: t
    else afterRows cs (dropProseLine row)
termination_by line.length
decreasing_by
  have h₁ := Container.inside_length_le cs (c :: t)
  have h₂ := Cursor.skipAll_length_le (Container.inside cs (c :: t))
  have h₃ := dropProseLine_length_le (Container.inside cs (c :: t)).skipAll.rest
  rw [List.length_cons] at h₁ ⊢
  omega

/-- What follows the lines of a paragraph whose text begins here. -/
def afterLines (cs : List Container) (s : Text) : Text :=
  match s with
  | [] => []
  | c :: t =>
    let next := dropProseLine (c :: t)
    let inner := Container.allContinued cs next
    let ahead := (Container.inside cs next).skip 4
    let line := ahead.2.rest
    let text := ahead.2.skipAll
    if ahead.1 ≠ 0 && inner && (afterUnderline? line).isSome then (afterUnderline? line).getD []
    else if ahead.1 ≠ 0 && interruptsParagraph cs inner line then next
    else if text.atLineEnd then next
    else afterLines cs text.rest
termination_by s.length
decreasing_by
  have h₀ := dropProseLine_length_le (c :: t)
  have h₁ := Container.inside_length_le cs (dropProseLine (c :: t))
  have h₂ := Cursor.skip_length_le 4 (Container.inside cs (dropProseLine (c :: t)))
  have h₃ := Cursor.skipAll_length_le ((Container.inside cs (dropProseLine (c :: t))).skip 4).2
  rw [List.length_cons] at h₀ ⊢
  omega

/-- What follows the paragraph or table whose text begins here. -/
def after (cs : List Container) (s : Text) : Text :=
  match Table.afterHead? cs s with
  | some body => afterRows cs body
  | none => afterLines cs s

/-! ## How much is left -/

theorem afterRows_length_le (cs : List Container) (line : Text) :
    (afterRows cs line).length ≤ line.length := by
  fun_induction afterRows cs line with
  | case1 => exact Nat.le_refl _
  | case2 => exact Nat.le_refl _
  | case3 c t row _ ih =>
    have h₁ := Container.inside_length_le cs (c :: t)
    have h₂ := Cursor.skipAll_length_le (Container.inside cs (c :: t))
    have h₃ := dropProseLine_length_le row
    have h₄ : row.length ≤ _ := h₂
    omega

theorem afterLines_length_le (cs : List Container) (s : Text) :
    (afterLines cs s).length ≤ s.length - 1 := by
  fun_induction afterLines cs s with
  | case1 => exact Nat.le_refl _
  | case2 c t next inner ahead line h =>
    have h₀ : next.length ≤ _ := dropProseLine_length_le (c :: t)
    have h₁ := Container.inside_length_le cs next
    have h₂ : line.length ≤ _ := Cursor.skip_length_le 4 (Container.inside cs next)
    cases hu : afterUnderline? line with
    | none => exact Nat.zero_le _
    | some r =>
      have := afterUnderline?_length_le hu
      rw [Option.getD_some]
      omega
  | case3 c t next => exact dropProseLine_length_le (c :: t)
  | case4 c t next => exact dropProseLine_length_le (c :: t)
  | case5 c t next inner ahead line text _ _ _ ih =>
    have h₀ : next.length ≤ _ := dropProseLine_length_le (c :: t)
    have h₁ := Container.inside_length_le cs next
    have h₂ : ahead.2.rest.length ≤ _ := Cursor.skip_length_le 4 (Container.inside cs next)
    have h₃ : text.rest.length ≤ _ := Cursor.skipAll_length_le ahead.2
    omega

theorem after_length_le (cs : List Container) (s : Text) :
    (after cs s).length ≤ s.length - 1 := by
  unfold after
  split
  · rename_i body h
    exact Nat.le_trans (afterRows_length_le cs body) (Table.afterHead?_length_le h)
  · exact afterLines_length_le cs s

end Tangle.Markdown.Paragraph
