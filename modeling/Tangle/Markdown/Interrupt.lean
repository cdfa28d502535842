import Tangle.Markdown.Html
import Tangle.Markdown.Table

/-!
# What ends a paragraph

A line that begins another kind of block ends the paragraph before it, with exceptions that keep a
number or a dash in running text from being a list. The recognisers of the single constructs are
here too, since the parser asks them again at the beginning of a block.
-/

namespace Tangle.Markdown

/-- What follows the thematic break with the marks `c`, of which `n` have been seen. -/
def afterRule? (c : Char) (n : Nat) : Text → Option Text
  | [] => if 3 ≤ n then some [] else none
  | d :: s =>
    if d = '\n' || d = '\r' then if 3 ≤ n then afterLineEnd? (d :: s) else none
    else if d = c then afterRule? c (n + 1) s
    else if d = ' ' || d = '\t' then afterRule? c n s
    else none

/-- What follows the thematic break that begins here. -/
def afterThematicBreak? : Text → Option Text
  | [] => none
  | c :: s => if c = '*' || c = '-' || c = '_' then afterRule? c 0 (c :: s) else none

/-- What follows the marks of the heading that begins here. -/
def afterHeadingMarks? (s : Text) : Option Text :=
  let n := runLength '#' s
  let rest := s.drop n
  if 1 ≤ n && n ≤ 6 && rest.head?.all isSpacing then some rest else none

/-- What follows the underline that makes a heading of the lines before it. -/
def afterUnderline? : Text → Option Text
  | [] => none
  | c :: s =>
    if c = '=' || c = '-' then afterBlankLine? ((c :: s).drop (runLength c (c :: s))) else none

/-- An opening code fence: its character and length. Behind backticks no backtick may follow. -/
def fence? : Text → Option (Char × Nat)
  | [] => none
  | c :: s =>
    let n := runLength c (c :: s)
    if c = '~' && 3 ≤ n then some (c, n)
    else if c = '`' && 3 ≤ n && !((splitLine ((c :: s).drop n)).1.contains '`') then some (c, n)
    else none

/-- The rest of the text from the mark that ends the number of an ordered list item. -/
def afterNumber? (s : Text) : Option (Nat × Text) :=
  let digits := (s.take 9).takeWhile Char.isDigit
  if digits.isEmpty then none else some (digits.length, s.drop digits.length)

/-- What follows a list marker, and whether a list that begins with it may interrupt a paragraph:
bullets may, and of the numbers only 1. -/
def listMarker? : Text → Option (Bool × Text)
  | [] => none
  | c :: s =>
    if c = '-' || c = '+' || c = '*' then some (true, s)
    else
      match afterNumber? (c :: s) with
      | some (n, d :: rest) =>
        if d = '.' || d = ')' then
          some ((((c :: s).take n).foldl (fun v d => v * 10 + (d.toNat - '0'.toNat)) 0) = 1, rest)
        else none
      | _ => none

/-- Whether a list item interrupts a paragraph. In a place where `anyItem` holds each one does;
elsewhere it has to be of the right kind and must not be followed by a blank line if it is empty. -/
def itemInterrupts (anyItem : Bool) (s : Text) : Bool :=
  match listMarker? s with
  | none => false
  | some (eligible, rest) =>
    let spaced := rest.head?.all fun c => c = ' ' || c = '\t' || c = '\n' || c = '\r'
    let emptyItem := match afterBlankLine? rest with
      | some next => startsBlank next
      | none => false
    spaced && (anyItem || (eligible && !emptyItem))

/-- What follows the bracket that closes a footnote label, which lies within one line. `length`
measures it: of the characters that are not blank only those beyond ASCII count, with their bytes,
and each escape for two. -/
def afterFootnoteLabel? (length : Nat) (written : Bool) : Text → Option Text
  | [] => none
  | c :: s =>
    if length ≥ 1000 || c = '[' || c = '\n' || c = '\r' then none
    else if c = ']' then if written then some s else none
    else if c = '\\' then
      match s with
      | [] => none
      | _ :: s => afterFootnoteLabel? (length + 2) true s
    else if isSpacing c then afterFootnoteLabel? (length + 1) written s
    else afterFootnoteLabel? (length + (if c.utf8Size = 1 then 0 else c.utf8Size)) true s

/-- What follows the colon of the footnote definition that begins here. -/
def afterFootnoteMark? : Text → Option Text
  | '[' :: '^' :: s =>
    match afterFootnoteLabel? 0 false s with
    | some (':' :: s) => some s
    | _ => none
  | _ => none

/-- Whether a block other than a table begins here that ends a paragraph. -/
def blockInterrupts (anyItem : Bool) (s : Text) : Bool :=
  (afterLineEnd? s).isSome || (afterThematicBreak? s).isSome || (afterHeadingMarks? s).isSome ||
    (fence? s).isSome || s.head? = some '>' || itemInterrupts anyItem s || Html.interrupts s ||
    (afterFootnoteMark? s).isSome

/-- Whether the text behind the containers of a line ends the paragraph before it; `inner` holds if
the line continues all the containers of the paragraph. -/
def interruptsParagraph (cs : List Container) (inner : Bool) (s : Text) : Bool :=
  blockInterrupts (!inner) s || Table.interrupts cs s

/-! ## How much is left -/

theorem afterRule?_length_le {c : Char} {n : Nat} {s r : Text} (h : afterRule? c n s = some r) :
    r.length ≤ s.length := by
  fun_induction afterRule? c n s with
  | case1 => cases h; exact Nat.le_refl _
  | case2 => cases h
  | case3 => exact Nat.le_trans (afterLineEnd?_length_le h) (Nat.sub_le ..)
  | case4 => cases h
  | case5 _ _ _ ih => exact Nat.le_trans (ih h) (Nat.le_succ _)
  | case6 _ _ _ _ _ _ ih => exact Nat.le_trans (ih h) (Nat.le_succ _)
  | case7 => cases h

theorem afterThematicBreak?_length_le {s r : Text} (h : afterThematicBreak? s = some r) :
    r.length ≤ s.length - 1 := by
  unfold afterThematicBreak? at h
  split at h
  · cases h
  · rename_i c s
    split at h
    · rename_i hc
      have hn : ¬(c = '\n' || c = '\r') = true := by
        intro hn
        simp only [Bool.or_eq_true, decide_eq_true_eq] at hc hn
        rcases hn with rfl | rfl <;> revert hc <;> decide
      rw [afterRule?, if_neg hn, if_pos rfl] at h
      exact afterRule?_length_le h
    · cases h

theorem afterHeadingMarks?_length_le {s r : Text} (h : afterHeadingMarks? s = some r) :
    r.length ≤ s.length - 1 := by
  unfold afterHeadingMarks? at h
  dsimp only at h
  split at h
  · rename_i hn
    cases h
    simp only [Bool.and_eq_true, decide_eq_true_eq] at hn
    rw [List.length_drop]
    omega
  · cases h

theorem afterUnderline?_length_le {s r : Text} (h : afterUnderline? s = some r) :
    r.length ≤ s.length - 1 := by
  unfold afterUnderline? at h
  split at h
  · cases h
  · split at h
    · have := afterBlankLine?_length_le h
      rw [List.length_drop] at this
      omega
    · cases h

theorem afterFootnoteLabel?_length_le {length : Nat} {written : Bool} {s r : Text}
    (h : afterFootnoteLabel? length written s = some r) : r.length ≤ s.length := by
  fun_induction afterFootnoteLabel? length written s with
  | case1 => cases h
  | case2 => cases h
  | case3 => cases h; exact Nat.le_succ _
  | case4 => cases h
  | case5 => cases h
  | case6 _ _ _ _ _ _ ih => exact Nat.le_trans (ih h) (Nat.le_add_right _ 2)
  | case7 _ _ _ _ _ _ _ _ ih => exact Nat.le_trans (ih h) (Nat.le_succ _)
  | case8 _ _ _ _ _ _ _ _ ih => exact Nat.le_trans (ih h) (Nat.le_succ _)

theorem afterFootnoteMark?_length_lt {s r : Text} (h : afterFootnoteMark? s = some r) :
    r.length < s.length := by
  unfold afterFootnoteMark? at h
  split at h
  · split at h
    · rename_i hl
      cases h
      have := afterFootnoteLabel?_length_le hl
      simp only [List.length_cons] at this ⊢
      omega
    · cases h
  · cases h

end Tangle.Markdown
