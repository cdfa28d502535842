import Tangle.Markdown.Container

/-!
# Table heads

A table is a paragraph whose first line has column separators and whose second line is a delimiter
row with as many columns. Tables hold no blocks, so all that matters is where they begin.
-/

namespace Tangle.Markdown.Table

/-- What the scan of a delimiter row has seen so far. -/
structure Row where
  columns : Nat
  /-- Whether a column has just begun. -/
  fresh : Bool
  pipe : Bool
  hyphen : Bool
  hyphenInColumn : Bool

/-- Reads the delimiter row: the number of its columns, and what follows it. -/
def readRow (row : Row) : Text → Option (Nat × Text)
  | [] => finish []
  | c :: s =>
    if c = '\n' || c = '\r' then finish ((afterLineEnd? (c :: s)).getD [])
    else if c = ' ' then readRow row s
    else if c = ':' then readRow { row with fresh := false } s
    else if c = '-' then
      readRow { row with fresh := false, hyphen := true, hyphenInColumn := true } s
    else if c = '|' then
      if row.hyphenInColumn then
        readRow { row with columns := row.columns + 1, fresh := true, pipe := true,
                           hyphenInColumn := false } s
      else none
    else none
where
  finish (rest : Text) : Option (Nat × Text) :=
    if row.pipe && row.hyphen then
      some (if row.fresh then row.columns else row.columns + 1, rest)
    else none

/-- The delimiter row that begins here: the number of its columns, and what follows it. -/
def delimiterRow? (s : Text) : Option (Nat × Text) :=
  let row : Row := ⟨0, true, false, false, false⟩
  if (Cursor.indent 4 (.start s)).1 ≥ 4 then none
  else
    match s with
    | [] => none
    | '|' :: s => readRow { row with pipe := true } s
    | s => readRow row s

/-- How many columns a head line with this many separators has; `behind` follows the last one. -/
def columnCount (line : Text) (pipes : Nat) (behind : Text) : Nat :=
  let pipes := if (line.dropWhile isInlineSpacing).head? = some '|' then pipes - 1 else pipes
  if startsBlank behind then pipes else pipes + 1

/-- The separators of a head line, what follows the last of them, and what follows the line. A
backslash hides the punctuation behind it. -/
def headPipes (pipes : Nat) (behind : Text) : Text → Option (Nat × Text × Text)
  | [] => none
  | '\n' :: s => some (pipes, behind, s)
  | '\r' :: '\n' :: s => some (pipes, behind, s)
  | '\r' :: s => some (pipes, behind, s)
  | '|' :: s => headPipes (pipes + 1) s s
  | '\\' :: c :: s => if isPunctuation c then headPipes pipes behind s
    else headPipes pipes behind (c :: s)
  | _ :: s => headPipes pipes behind s

/-- The same for a line that would interrupt a paragraph, where a backslash only ever hides the
separator right behind it. -/
def interruptingPipes (pipes : Nat) (behind : Text) : Text → Option (Nat × Text × Text)
  | [] => none
  | '\n' :: s => some (pipes, behind, s)
  | '\r' :: '\n' :: s => some (pipes, behind, s)
  | '\r' :: s => some (pipes, behind, s)
  | '\\' :: '|' :: s => interruptingPipes pipes behind s
  | '|' :: s => interruptingPipes (pipes + 1) s s
  | _ :: s => interruptingPipes pipes behind s

/-- What follows the delimiter row, if the head line with these separators has one. -/
def body? (cs : List Container) (line : Text) : Option (Nat × Text × Text) → Option Text
  | none => none
  | some (pipes, behind, next) =>
    if pipes = 0 || !Container.allContinued cs next then none
    else
      match delimiterRow? (Container.inside cs next).rest with
      | some (columns, rest) =>
        if columns = columnCount line pipes behind then some rest else none
      | none => none

/-- What follows the head of the table that the prose line `line` begins. -/
def afterHead? (cs : List Container) (line : Text) : Option Text :=
  body? cs line (headPipes 0 [] line)

/-- Whether the line begins a table that may interrupt a paragraph. -/
def interrupts (cs : List Container) (line : Text) : Bool :=
  line.head? = some '|' && (body? cs line (interruptingPipes 0 [] line)).isSome

/-! ## How much is left -/

theorem readRow_length_le {row : Row} {s rest : Text} {columns : Nat}
    (h : readRow row s = some (columns, rest)) : rest.length ≤ s.length := by
  have finish_eq {row : Row} {t : Text} (h : readRow.finish row t = some (columns, rest)) :
      rest = t := by
    unfold readRow.finish at h
    split at h <;> cases h
    rfl
  fun_induction readRow row s with
  | case1 => exact Nat.le_of_eq (congrArg List.length (finish_eq h))
  | case2 row c s hc =>
    rw [finish_eq h]
    cases he : afterLineEnd? (c :: s) with
    | none => exact Nat.zero_le _
    | some r => exact Nat.le_trans (afterLineEnd?_length_le he) (Nat.sub_le ..)
  | case3 _ _ _ ih => exact Nat.le_trans (ih h) (Nat.le_succ _)
  | case4 _ _ _ _ ih => exact Nat.le_trans (ih h) (Nat.le_succ _)
  | case5 _ _ _ _ _ ih => exact Nat.le_trans (ih h) (Nat.le_succ _)
  | case6 _ _ _ _ _ _ _ ih => exact Nat.le_trans (ih h) (Nat.le_succ _)
  | case7 => cases h
  | case8 => cases h

theorem delimiterRow?_length_le {s rest : Text} {columns : Nat}
    (h : delimiterRow? s = some (columns, rest)) : rest.length ≤ s.length := by
  unfold delimiterRow? at h
  dsimp only at h
  split at h
  · cases h
  · split at h
    · cases h
    · exact Nat.le_trans (readRow_length_le h) (Nat.le_succ _)
    · exact readRow_length_le h

theorem headPipes_length_le {pipes p : Nat} {behind b s next : Text}
    (h : headPipes pipes behind s = some (p, b, next)) : next.length ≤ s.length - 1 := by
  fun_induction headPipes pipes behind s with
  | case1 => cases h
  | case2 => cases h; exact Nat.le_refl _
  | case3 => cases h; exact Nat.le_succ _
  | case4 => cases h; exact Nat.le_refl _
  | case5 _ _ _ ih => exact Nat.le_trans (ih h) (Nat.sub_le ..)
  | case6 _ _ _ _ _ ih => exact Nat.le_trans (ih h) (Nat.le_trans (Nat.sub_le ..) (Nat.le_succ _))
  | case7 _ _ _ _ _ ih => exact Nat.le_trans (ih h) (Nat.sub_le ..)
  | case8 _ _ _ _ _ _ _ _ _ ih => exact Nat.le_trans (ih h) (Nat.sub_le ..)

theorem afterHead?_length_le {cs : List Container} {line rest : Text}
    (h : afterHead? cs line = some rest) : rest.length ≤ line.length - 1 := by
  unfold afterHead? at h
  cases hp : headPipes 0 [] line with
  | none => rw [hp] at h; cases h
  | some head =>
    obtain ⟨pipes, behind, next⟩ := head
    have h₁ := headPipes_length_le hp
    have h₂ := Container.inside_length_le cs next
    rw [hp, body?] at h
    split at h
    · cases h
    · split at h
      · rename_i hd
        have h₃ := delimiterRow?_length_le hd
        split at h
        · cases h; omega
        · cases h
      · cases h

end Tangle.Markdown.Table
