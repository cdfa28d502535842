import Tangle.Markdown.Interrupt

/-!
# Containers that a line opens

Behind the containers it continues, a line may begin block quotes, list items and footnote
definitions, one inside the other. What is left then is the beginning of a leaf block, running text
that cannot be anything else, or nothing.
-/

namespace Tangle.Markdown

/-- What a line holds behind the containers it opens. -/
inductive Opened where
  /-- A leaf block, or a blank line, from the cursor on. -/
  | leaf (st : State) (cur : Cursor)
  /-- Running text: what follows a task marker. -/
  | prose (st : State) (s : Text)
  /-- Nothing more; the text is that of the next line. -/
  | nothing (st : State) (next : Text)

namespace Opened

/-- The list marker at a cursor that was indented by `indent` columns: its character, the columns
that its content is indented by, and the cursor at that content. -/
def listItem? (indent : Nat) (cur : Cursor) : Option (Char × Nat × Cursor) :=
  match cur.rest with
  | [] => none
  | c :: s =>
    if c = '-' || c = '+' || c = '*' then
      if (afterThematicBreak? (c :: s)).isSome then none
      else content c 1 ⟨s, cur.column + 1, cur.owed⟩
    else
      match afterNumber? (c :: s) with
      | some (n, d :: s) =>
        if d = '.' || d = ')' then content d (n + 1) ⟨s, cur.column + n + 1, cur.owed⟩ else none
      | _ => none
where
  content (marker : Char) (width : Nat) (cur : Cursor) : Option (Char × Nat × Cursor) :=
    let (missing, cur) := cur.skip 1
    if missing = 0 || cur.atLineEnd then
      let (more, inner) := cur.indent 4
      if startsBlank cur.rest then some (marker, indent + width + 1, cur)
      else if more < 4 then some (marker, indent + width + 1 + more, inner)
      else some (marker, indent + width + 1, cur)
    else none

/-- What follows a task marker, which needs a blank behind it. -/
def afterTask? (cur : Cursor) : Option Text :=
  match (cur.skip 3).2.rest with
  | '[' :: c :: ']' :: d :: s =>
    if (isInlineSpacing c || c = 'x' || c = 'X') && isInlineSpacing d then some (d :: s) else none
  | _ => none

/-- The kinds of alert that the first line of a block quote may name. -/
def alerts : List String := ["[!note]", "[!tip]", "[!important]", "[!warning]", "[!caution]"]

/-- What follows the line of the alert tag that begins here. -/
def afterAlert? (s : Text) : Option Text :=
  alerts.findSome? fun tag =>
    match dropPrefixIgnoringCase? tag.toList s with
    | some rest => afterBlankLine? rest
    | none => none

/-- Closes what a footnote definition cannot be inside of, and opens it. -/
def pushFootnote (st : State) : State :=
  let st := st.finishList
  match st.top? with
  | some .footnote => st.pop.push .footnote
  | _ => st.push .footnote

/-! ## How much is left -/

theorem listItem?_content_length_le {marker m : Char} {indent width w : Nat} {cur inner : Cursor}
    (h : listItem?.content indent marker width cur = some (m, w, inner)) :
    inner.rest.length ≤ cur.rest.length := by
  have h₁ := Cursor.skip_length_le 1 cur
  have h₂ := Cursor.skip_length_le 4 (cur.skip 1).2
  unfold listItem?.content at h
  dsimp only [Cursor.indent] at h
  split at h
  · split at h
    · cases h; exact h₁
    · split at h
      · cases h; exact Nat.le_trans h₂ h₁
      · cases h; exact h₁
  · cases h

theorem listItem?_length_lt {indent width : Nat} {marker : Char} {cur inner : Cursor}
    (h : listItem? indent cur = some (marker, width, inner)) :
    inner.rest.length < cur.rest.length := by
  unfold listItem? at h
  split at h
  · cases h
  · rename_i c s hs
    rw [hs, List.length_cons]
    split at h
    · split at h
      · cases h
      · exact Nat.lt_succ_of_le (listItem?_content_length_le h)
    · split at h
      · rename_i n d t hn
        unfold afterNumber? at hn
        dsimp only at hn
        split at hn
        · cases hn
        · have ht := congrArg List.length (Prod.mk.inj (Option.some.inj hn)).2
          rw [List.length_drop, List.length_cons, List.length_cons] at ht
          split at h
          · have : inner.rest.length ≤ t.length := listItem?_content_length_le h
            omega
          · cases h
      · cases h

theorem afterTask?_length_le {cur : Cursor} {s : Text} (h : afterTask? cur = some s) :
    s.length ≤ cur.rest.length := by
  have h₁ := Cursor.skip_length_le 3 cur
  unfold afterTask? at h
  split at h
  · rename_i c d t ht
    rw [ht] at h₁
    split at h
    · cases h
      simp only [List.length_cons] at h₁ ⊢
      omega
    · cases h
  · cases h

theorem afterAlert?_length_le {s r : Text} (h : afterAlert? s = some r) :
    r.length ≤ s.length := by
  unfold afterAlert? at h
  obtain ⟨tag, _, h⟩ := List.exists_of_findSome?_eq_some h
  split at h
  · rename_i t ht
    have h₁ := afterBlankLine?_length_le h
    have h₂ : t.length ≤ s.length := by
      unfold dropPrefixIgnoringCase? at ht
      split at ht <;> cases ht
      rw [List.length_drop]
      omega
    omega
  · cases h

/-- Opens the containers that begin at the cursor. -/
def ofLine (st : State) (cur : Cursor) : Opened :=
  let indent := (cur.indent 4).1
  let ahead := (cur.indent 4).2
  if indent = 4 then .leaf st cur
  else
    match _hf : afterFootnoteMark? ahead.rest with
    | some s => ofLine (pushFootnote st) (.start (s.dropWhile isInlineSpacing))
    | none =>
      match _hi : listItem? indent ahead with
      | some (marker, width, inner) =>
        let st := (st.continueList marker).push (.item width)
        match afterBlankLine? inner.rest with
        | some next => .nothing { st with emptyItem := true } next
        | none =>
          match afterTask? inner with
          | some s =>
            match afterBlankLine? s with
            | some next => .nothing { st with emptyItem := true } next
            | none => .prose st s
          | none => ofLine st inner
      | none =>
        match _hq : ahead.char? '>' with
        | some inner =>
          let st := st.finishList.push .quote
          match afterAlert? (inner.skip 1).2.rest with
          | some next =>
            let (missing, line) := (Container.inside st.containers next).skip 4
            if missing ≠ 0 &&
                interruptsParagraph st.containers (Container.allContinued st.containers next)
                  line.rest then
              .nothing st next
            else .leaf st line.skipAll
          | none => ofLine st (inner.skip 1).2
        | none => .leaf st cur
termination_by cur.rest.length
decreasing_by
  · have h₁ := Cursor.skip_length_le 4 cur
    have h₂ := afterFootnoteMark?_length_lt _hf
    have h₃ := dropWhile_length_le isInlineSpacing s
    exact Nat.lt_of_le_of_lt h₃ (Nat.lt_of_lt_of_le h₂ h₁)
  · exact Nat.lt_of_lt_of_le (listItem?_length_lt _hi) (Cursor.skip_length_le 4 cur)
  · exact Nat.lt_of_le_of_lt (Cursor.skip_length_le 1 inner)
      (Nat.lt_of_lt_of_le (Cursor.char?_length_lt _hq) (Cursor.skip_length_le 4 cur))

/-- How much is left at most once the leaf block has been read as well. -/
def left : Opened → Nat
  | leaf _ cur => cur.rest.length - 1
  | prose _ s => s.length - 1
  | nothing _ next => next.length

theorem left_ofLine_le (st : State) (cur : Cursor) :
    (ofLine st cur).left ≤ cur.rest.length - 1 := by
  have ahead_le (cur : Cursor) : (cur.indent 4).2.rest.length ≤ cur.rest.length :=
    Cursor.skip_length_le 4 cur
  fun_induction ofLine st cur with
  | case1 => exact Nat.le_refl _
  | case2 st cur indent ahead _ s hf ih =>
    have h₁ : ahead.rest.length ≤ _ := ahead_le cur
    have h₂ := afterFootnoteMark?_length_lt hf
    have h₃ := dropWhile_length_le isInlineSpacing s
    have h₄ : (Cursor.start (s.dropWhile isInlineSpacing)).rest.length ≤ s.length := h₃
    omega
  | case3 st cur indent ahead _ _ marker width inner hi _ next hn =>
    have h₁ : ahead.rest.length ≤ _ := ahead_le cur
    have h₂ := listItem?_length_lt hi
    have h₃ := afterBlankLine?_length_le hn
    show next.length ≤ _
    omega
  | case4 st cur indent ahead _ _ marker width inner hi _ _ s ht next hn =>
    have h₁ : ahead.rest.length ≤ _ := ahead_le cur
    have h₂ := listItem?_length_lt hi
    have h₃ := afterTask?_length_le ht
    have h₄ := afterBlankLine?_length_le hn
    show next.length ≤ _
    omega
  | case5 st cur indent ahead _ _ marker width inner hi _ _ s ht =>
    have h₁ : ahead.rest.length ≤ _ := ahead_le cur
    have h₂ := listItem?_length_lt hi
    have h₃ := afterTask?_length_le ht
    show s.length - 1 ≤ _
    omega
  | case6 st cur indent ahead _ _ marker width inner hi _ _ _ ih =>
    have h₁ : ahead.rest.length ≤ _ := ahead_le cur
    have h₂ := listItem?_length_lt hi
    omega
  | case7 st cur indent ahead _ _ _ inner hq _ next ha =>
    have h₁ : ahead.rest.length ≤ _ := ahead_le cur
    have h₂ := Cursor.char?_length_lt hq
    have h₃ := Cursor.skip_length_le 1 inner
    have h₄ := afterAlert?_length_le ha
    show next.length ≤ _
    omega
  | case8 st cur indent ahead _ _ _ inner hq opened next ha missing line hl =>
    have h₁ : ahead.rest.length ≤ _ := ahead_le cur
    have h₂ := Cursor.char?_length_lt hq
    have h₃ := Cursor.skip_length_le 1 inner
    have h₄ := afterAlert?_length_le ha
    have h₅ := Container.inside_length_le opened.containers next
    have h₆ := Cursor.skip_length_le 4 (Container.inside opened.containers next)
    rw [hl] at h₆
    have h₇ := Cursor.skipAll_length_le line
    have h₈ : line.rest.length ≤ _ := h₆
    show line.skipAll.rest.length - 1 ≤ _
    omega
  | case9 st cur indent ahead _ _ _ inner hq _ _ ih =>
    have h₁ : ahead.rest.length ≤ _ := ahead_le cur
    have h₂ := Cursor.char?_length_lt hq
    have h₃ := Cursor.skip_length_le 1 inner
    omega
  | case10 => exact Nat.le_refl _

end Opened

end Tangle.Markdown
