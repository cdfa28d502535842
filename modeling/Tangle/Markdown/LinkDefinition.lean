import Tangle.Markdown.Interrupt

/-!
# Link reference definitions

`[label]: destination "title"` defines a link and shows nothing. Only its extent matters here. It
may run over several lines as long as each of them could continue a paragraph.
-/

namespace Tangle.Markdown.LinkDefinition

/-- The text of the line that begins here, if the line may continue what was begun before it. -/
def continuation? (cs : List Container) (line : Text) : Option Text :=
  let (missing, cur) := (Container.inside cs line).skip 4
  let inner := Container.allContinued cs line
  if missing = 0 then some cur.rest
  else if interruptsParagraph cs inner cur.rest ||
      (inner && (afterUnderline? cur.rest).isSome) then none
  else some cur.rest

/-- What follows a line end, up to the text of a line that may continue what was begun. -/
def nextLine? (cs : List Container) (s : Text) : Option Text :=
  match afterLineEnd? s with
  | some line => continuation? cs line
  | none => none

theorem continuation?_length_le {cs : List Container} {line r : Text}
    (h : continuation? cs line = some r) : r.length ≤ line.length := by
  have h₁ := Container.inside_length_le cs line
  have h₂ := Cursor.skip_length_le 4 (Container.inside cs line)
  unfold continuation? at h
  dsimp only at h
  split at h
  · cases h; omega
  · split at h
    · cases h
    · cases h; omega

theorem nextLine?_length_le {cs : List Container} {s r : Text} (h : nextLine? cs s = some r) :
    r.length ≤ s.length - 1 := by
  unfold nextLine? at h
  split at h
  · rename_i line hl
    exact Nat.le_trans (continuation?_length_le h) (afterLineEnd?_length_le hl)
  · cases h

/-- What follows the bracket that closes a label. `length` measures it, where of the characters that
are not blank only those beyond ASCII count, with their bytes, and each escape for two. `written`
tells whether one of them is not blank, and `broken` whether the blanks just before hold a line
end. -/
def afterLabel? (cs : List Container) (length : Nat) (written broken : Bool) (s : Text) :
    Option Text :=
  match s with
  | [] => none
  | c :: t =>
    if length ≥ 1000 || c = '[' then none
    else if c = ']' then if written then some t else none
    else if c = '\\' then afterLabel? cs (length + 2) true false (t.drop 1)
    else if c = '\n' || c = '\r' then
      if broken then none
      else
        match _h : nextLine? cs (c :: t) with
        | none => none
        | some r => afterLabel? cs (length + (t.length + 1 - r.length)) written true r
    else if isSpacing c then afterLabel? cs (length + 1) written broken t
    else afterLabel? cs (length + (if c.utf8Size = 1 then 0 else c.utf8Size)) true false t
termination_by s.length
decreasing_by
  · exact Nat.lt_succ_of_le (Nat.le_trans (Nat.le_of_eq List.length_drop) (Nat.sub_le ..))
  · exact Nat.lt_succ_of_le (nextLine?_length_le _h)
  · exact Nat.lt_succ_self _
  · exact Nat.lt_succ_self _

/-- What follows the blanks ahead, of which at most one may end a line, and whether one does. -/
def afterGap? (cs : List Container) (s : Text) : Option (Text × Bool) :=
  let s := s.dropWhile isInlineSpacing
  if (afterLineEnd? s).isNone then some (s, false)
  else
    match nextLine? cs s with
    | none => none
    | some s =>
      let s := s.dropWhile isInlineSpacing
      if (afterLineEnd? s).isSome then none else some (s, true)

/-- What follows a destination in angle brackets. -/
def afterAngled? : Text → Option Text
  | [] => none
  | '>' :: s => some s
  | '\\' :: c :: s => if isPunctuation c then afterAngled? s else afterAngled? (c :: s)
  | c :: s => if c = '\n' || c = '\r' || c = '<' then none else afterAngled? s

/-- What follows a bare destination, inside `depth` open parentheses. -/
def afterBare? (depth : Nat) : Text → Option Text
  | [] => if depth = 0 then some [] else none
  | '\\' :: c :: s => if isPunctuation c then afterBare? depth s else afterBare? depth (c :: s)
  | c :: s =>
    if c ≤ ' ' then if depth = 0 then some (c :: s) else none
    else if c = '(' then if depth > 32 then none else afterBare? (depth + 1) s
    else if c = ')' then if depth = 0 then some (c :: s) else afterBare? (depth - 1) s
    else afterBare? depth s

/-- What follows the destination that begins here. A bare one is not empty. -/
def afterDestination? : Text → Option Text
  | [] => none
  | '<' :: s => afterAngled? s
  | c :: s => if c ≤ ' ' || c = ')' then none else afterBare? 0 (c :: s)

/-- What follows a backslash and the character it stands in front of, which is not a line end. -/
def dropEscaped : Text → Text
  | [] => []
  | c :: s => if c = '\n' || c = '\r' then c :: s else s

theorem dropEscaped_length_le (s : Text) : (dropEscaped s).length ≤ s.length := by
  unfold dropEscaped
  split
  · exact Nat.le_refl _
  · split
    · exact Nat.le_refl _
    · exact Nat.le_succ _

/-- What follows a title that ends with `close`. -/
def afterTitle? (cs : List Container) (close : Char) (s : Text) : Option Text :=
  match s with
  | [] => none
  | c :: t =>
    if c = close then some t
    else if c = '(' && close = ')' then none
    else if c = '\\' then afterTitle? cs close (dropEscaped t)
    else if c = '\n' || c = '\r' then
      match _h : nextLine? cs (c :: t) with
      | none => none
      | some r => afterTitle? cs close r
    else afterTitle? cs close t
termination_by s.length
decreasing_by
  · exact Nat.lt_succ_of_le (dropEscaped_length_le t)
  · exact Nat.lt_succ_of_le (nextLine?_length_le _h)
  · exact Nat.lt_succ_self _

/-- What follows the title that begins here. -/
def afterOpenedTitle? (cs : List Container) : Text → Option Text
  | '"' :: s => afterTitle? cs '"' s
  | '\'' :: s => afterTitle? cs '\'' s
  | '(' :: s => afterTitle? cs ')' s
  | _ => none

/-- What follows the rest of a definition, from behind its colon: the text behind the title, or
behind the destination if what looks like a title on the next line is none. -/
def afterColon? (cs : List Container) (s : Text) : Option Text :=
  match afterGap? cs s with
  | none => none
  | some (s, _) =>
    match afterDestination? s with
    | none => none
    | some bare =>
      match afterGap? cs bare with
      | none => some bare
      | some (s, broken) =>
        if bare.head?.all fun c => !isSpacing c then none
        else
          let untitled := if broken then some bare else none
          match afterOpenedTitle? cs s with
          | none => untitled
          | some rest => if startsBlank rest then some rest else untitled

/-- What follows the definition that begins here, up to the line end. -/
def after? (cs : List Container) : Text → Option Text
  | '[' :: s =>
    match afterLabel? cs 0 false false s with
    | some (':' :: s) => afterColon? cs s
    | _ => none
  | _ => none

/-! ## How much is left -/

theorem afterLabel?_length_le {cs : List Container} {length : Nat} {written broken : Bool}
    {s r : Text} (h : afterLabel? cs length written broken s = some r) : r.length ≤ s.length := by
  fun_induction afterLabel? cs length written broken s with
  | case1 => cases h
  | case2 => cases h
  | case3 => cases h; exact Nat.le_succ _
  | case4 => cases h
  | case5 length written broken t _ _ ih =>
    have := ih h
    rw [List.length_drop] at this
    rw [List.length_cons]
    omega
  | case6 => cases h
  | case7 => cases h
  | case8 _ _ _ _ _ _ _ _ _ _ _ hn ih =>
    exact Nat.le_trans (ih h) (Nat.le_trans (nextLine?_length_le hn) (Nat.sub_le ..))
  | case9 _ _ _ _ _ _ _ _ _ _ ih => exact Nat.le_trans (ih h) (Nat.le_succ _)
  | case10 _ _ _ _ _ _ _ _ _ _ ih => exact Nat.le_trans (ih h) (Nat.le_succ _)

theorem afterGap?_length_le {cs : List Container} {s r : Text} {broken : Bool}
    (h : afterGap? cs s = some (r, broken)) : r.length ≤ s.length := by
  have h₁ := dropWhile_length_le isInlineSpacing s
  unfold afterGap? at h
  dsimp only at h
  split at h
  · cases h; exact h₁
  · split at h
    · cases h
    · rename_i t ht
      have h₂ := nextLine?_length_le ht
      have h₃ := dropWhile_length_le isInlineSpacing t
      split at h
      · cases h
      · cases h; omega

theorem afterAngled?_length_le {s r : Text} (h : afterAngled? s = some r) :
    r.length ≤ s.length := by
  fun_induction afterAngled? s with
  | case1 => cases h
  | case2 => cases h; exact Nat.le_succ _
  | case3 _ _ _ ih => exact Nat.le_trans (ih h) (Nat.le_add_right _ 2)
  | case4 _ _ _ ih => exact Nat.le_trans (ih h) (Nat.le_succ _)
  | case5 => cases h
  | case6 _ _ _ _ _ ih => exact Nat.le_trans (ih h) (Nat.le_succ _)

theorem afterBare?_length_le {depth : Nat} {s r : Text} (h : afterBare? depth s = some r) :
    r.length ≤ s.length := by
  fun_induction afterBare? depth s with
  | case1 => cases h; exact Nat.le_refl _
  | case2 => cases h
  | case3 _ _ _ _ ih => exact Nat.le_trans (ih h) (Nat.le_add_right _ 2)
  | case4 _ _ _ _ ih => exact Nat.le_trans (ih h) (Nat.le_succ _)
  | case5 => cases h; exact Nat.le_refl _
  | case6 => cases h
  | case7 => cases h
  | case8 _ _ _ _ _ ih => exact Nat.le_trans (ih h) (Nat.le_succ _)
  | case9 => cases h; exact Nat.le_refl _
  | case10 _ _ _ _ _ _ ih => exact Nat.le_trans (ih h) (Nat.le_succ _)
  | case11 _ _ _ _ _ _ _ ih => exact Nat.le_trans (ih h) (Nat.le_succ _)

theorem afterDestination?_length_le {s r : Text} (h : afterDestination? s = some r) :
    r.length ≤ s.length := by
  unfold afterDestination? at h
  split at h
  · cases h
  · exact Nat.le_trans (afterAngled?_length_le h) (Nat.le_succ _)
  · split at h
    · cases h
    · exact afterBare?_length_le h

theorem afterTitle?_length_le {cs : List Container} {close : Char} {s r : Text}
    (h : afterTitle? cs close s = some r) : r.length ≤ s.length := by
  fun_induction afterTitle? cs close s with
  | case1 => cases h
  | case2 => cases h; exact Nat.le_succ _
  | case3 => cases h
  | case4 t _ _ ih =>
    exact Nat.le_trans (ih h) (Nat.le_trans (dropEscaped_length_le t) (Nat.le_succ _))
  | case5 => cases h
  | case6 _ _ _ _ _ _ _ hn ih =>
    exact Nat.le_trans (ih h) (Nat.le_trans (nextLine?_length_le hn) (Nat.sub_le ..))
  | case7 _ _ _ _ _ _ ih => exact Nat.le_trans (ih h) (Nat.le_succ _)

theorem afterOpenedTitle?_length_le {cs : List Container} {s r : Text}
    (h : afterOpenedTitle? cs s = some r) : r.length ≤ s.length := by
  unfold afterOpenedTitle? at h
  split at h
  · exact Nat.le_trans (afterTitle?_length_le h) (Nat.le_succ _)
  · exact Nat.le_trans (afterTitle?_length_le h) (Nat.le_succ _)
  · exact Nat.le_trans (afterTitle?_length_le h) (Nat.le_succ _)
  · cases h

theorem afterColon?_length_le {cs : List Container} {s r : Text} (h : afterColon? cs s = some r) :
    r.length ≤ s.length := by
  unfold afterColon? at h
  split at h
  · cases h
  · rename_i t _ ht
    have h₁ := afterGap?_length_le ht
    split at h
    · cases h
    · rename_i bare hb
      have h₂ := afterDestination?_length_le hb
      split at h
      · cases h; omega
      · rename_i u broken hu
        have h₃ := afterGap?_length_le hu
        have untitled (h : (if broken = true then some bare else none) = some r) :
            r.length ≤ s.length := by
          split at h <;> cases h
          omega
        split at h
        · cases h
        · dsimp only at h
          split at h
          · exact untitled h
          · rename_i rest hr
            have h₄ := afterOpenedTitle?_length_le hr
            split at h
            · cases h; omega
            · exact untitled h

theorem after?_length_lt {cs : List Container} {s r : Text} (h : after? cs s = some r) :
    r.length < s.length := by
  unfold after? at h
  split at h
  · split at h
    · rename_i hl
      have h₁ := afterLabel?_length_le hl
      have h₂ := afterColon?_length_le h
      simp only [List.length_cons] at h₁ ⊢
      omega
    · cases h
  · cases h

end Tangle.Markdown.LinkDefinition
