import Tangle.Proofs.FenceReading

/-!
# How comments and stray delimiters are read

An opening delimiter at the beginning of a line starts a block of raw HTML,
which goes on to the end of the first line with a closing delimiter, or to the
end of the text. A line that consists of a closing delimiter without a block to
close is a paragraph. It swallows all lines up to one that interrupts it; a
fence and an opening delimiter do, and another closing delimiter does not.
-/

namespace Tangle

/-! ## Occurrences -/

theorem occursIn_iff {needle s : Text} :
    needle.occursIn s = true ↔ needle <:+: s := by
  induction s with
  | nil => rw [Text.occursIn, List.isEmpty_iff, List.infix_nil]
  | cons c s ih =>
      rw [Text.occursIn, Bool.or_eq_true, ih, List.isPrefixOf_iff_prefix,
        List.infix_cons_iff]

/-- What does not occur in a text occurs in no part of it. -/
theorem occursIn_of_isInfix {needle s t : Text} (h : needle.occursIn t = false)
    (hst : s <:+: t) : needle.occursIn s = false := by
  rw [← Bool.not_eq_true, occursIn_iff] at h ⊢
  exact fun hs => h (hs.trans hst)

/-- An occurrence does not reach across a character that the needle lacks. -/
theorem isPrefixOf_append_cons {needle : Text} {c : Char} (hc : c ∉ needle)
    (b : Text) :
    ∀ a : Text, needle.isPrefixOf (a ++ c :: b) = needle.isPrefixOf a := by
  induction needle with
  | nil => exact fun _ => rfl
  | cons d needle ih =>
      intro a
      have hd : (d == c) = false :=
        beq_eq_false_iff_ne.2 (Ne.symm (List.ne_of_not_mem_cons hc))
      cases a with
      | nil =>
          rw [List.nil_append, List.isPrefixOf_cons_cons, hd]
          rfl
      | cons e a =>
          rw [List.cons_append, List.isPrefixOf_cons_cons,
            List.isPrefixOf_cons_cons, ih (List.not_mem_of_not_mem_cons hc)]

theorem occursIn_append_cons {needle : Text} {c : Char} (hneedle : needle ≠ [])
    (hc : c ∉ needle) (a b : Text) :
    needle.occursIn (a ++ c :: b) = (needle.occursIn a || needle.occursIn b) := by
  have hnil : needle.occursIn [] = false := by
    rw [Text.occursIn]
    simpa using hneedle
  induction a with
  | nil =>
      have hfirst : needle.isPrefixOf (c :: b) = needle.isPrefixOf [] :=
        isPrefixOf_append_cons hc b []
      have hempty : needle.isPrefixOf [] = false := by
        cases needle with
        | nil => exact absurd rfl hneedle
        | cons d needle => rfl
      rw [List.nil_append, hnil, Text.occursIn, hfirst, hempty]
  | cons d a ih =>
      have hfirst := isPrefixOf_append_cons hc b (d :: a)
      rw [List.cons_append] at hfirst
      rw [List.cons_append, Text.occursIn, hfirst, ih, Text.occursIn,
        Bool.or_assoc]

/-- The closing delimiter has no room for another character. -/
theorem closing_occursIn {c : Char} (hc : c ∉ Comment.closing) (a b : Text) :
    Comment.closing.occursIn (a ++ c :: b) =
      (Comment.closing.occursIn a || Comment.closing.occursIn b) :=
  occursIn_append_cons (by decide) hc a b

theorem closing_occursIn_intercalate_space {words : List Text}
    (hwords : ∀ word ∈ words, Comment.closing.occursIn word = false) :
    Comment.closing.occursIn ([' '].intercalate words) = false := by
  induction words with
  | nil => rfl
  | cons word words ih =>
      have hword := hwords word (List.mem_cons_self ..)
      cases words with
      | nil => rwa [List.intercalate_singleton]
      | cons word' words =>
          have hrest := ih fun w hw => hwords w (List.mem_cons_of_mem word hw)
          rw [List.intercalate_cons_cons, List.append_assoc,
            List.singleton_append, closing_occursIn (by decide), hword, hrest]
          rfl

theorem closing_occursIn_replicate (n : Nat) (s : Text) :
    Comment.closing.occursIn (List.replicate n '`' ++ s) =
      Comment.closing.occursIn s := by
  induction n with
  | zero => rfl
  | succ n ih =>
      have hfirst :=
        closing_occursIn (c := '`') (by decide) [] (List.replicate n '`' ++ s)
      rw [List.nil_append, ih] at hfirst
      rw [List.replicate_succ, List.cons_append, hfirst]
      rfl

namespace Markdown

/-! ## The lines of a comment -/

namespace Leaf

/-- Outside all containers the lines of a block are those of the text. -/
theorem htmlUntil_eq (closing : Text) {s : Text} (h : s ≠ []) :
    htmlUntil [] closing 0 s =
      if closing.occursIn (splitLine s).1 || (splitLine s).2.isEmpty then
        ([lineText 0 (splitLine s).1], (splitLine s).2)
      else
        (lineText 0 (splitLine s).1 :: (htmlUntil [] closing 0 (splitLine s).2).1,
          (htmlUntil [] closing 0 (splitLine s).2).2) := by
  cases s with
  | nil => exact absurd rfl h
  | cons c t =>
      rw [htmlUntil]
      rfl

/-- An HTML block that begins with `s` and is to end with a closing delimiter
holds `kept`, and `rest` stands behind it. -/
def ReadsComment (s kept rest : Text) : Prop :=
  (htmlUntil [] Comment.closing 0 s).1.flatten = kept ∧
    (htmlUntil [] Comment.closing 0 s).2 = rest

namespace ReadsComment

theorem nil : ReadsComment [] [] [] := by
  rw [ReadsComment, htmlUntil]
  exact ⟨rfl, rfl⟩

/-- A line without a closing delimiter is passed over. -/
theorem line {line s kept rest : Text} (hreturn : '\r' ∉ line)
    (hfeed : '\n' ∉ line) (hclosing : Comment.closing.occursIn line = false)
    (h : ReadsComment s kept rest) :
    ReadsComment (line ++ '\n' :: s) (line ++ '\n' :: kept) rest := by
  obtain ⟨rfl, rfl⟩ := h
  have hline : Comment.closing.occursIn (line ++ ['\n']) = false := by
    rw [closing_occursIn (by decide), hclosing]
    rfl
  have hkept : lineText 0 (line ++ ['\n']) = line ++ ['\n'] :=
    lineText_of_not_mem (by simpa using hreturn)
  rw [ReadsComment, htmlUntil_eq _ (by simp), splitLine_append_lineFeed hfeed]
  cases s with
  | nil => simp [hkept, htmlUntil]
  | cons c t => simp [hkept, hline]

/-- The first line with a closing delimiter is the last of the comment. -/
theorem closing (rest : Text) :
    ReadsComment (Comment.closing ++ '\n' :: rest)
      (Comment.closing ++ ['\n']) rest := by
  have hline : Comment.closing.occursIn (Comment.closing ++ ['\n']) = true := by
    decide
  have hkept :
      lineText 0 (Comment.closing ++ ['\n']) = Comment.closing ++ ['\n'] :=
    lineText_of_not_mem (by decide)
  rw [ReadsComment, htmlUntil_eq _ (by simp),
    splitLine_append_lineFeed (by decide), hline, hkept]
  simp

/-- The end of the text ends the comment. -/
theorem last {line : Text} (hreturn : '\r' ∉ line) (hfeed : '\n' ∉ line) :
    ReadsComment line line [] := by
  by_cases hnil : line = []
  · rw [hnil]
    exact nil
  · rw [ReadsComment, htmlUntil_eq _ hnil, splitLine_of_not_mem hfeed,
      lineText_of_not_mem hreturn]
    simp

end ReadsComment

end Leaf

/-! ## Opening and closing delimiters at the beginning of a line -/

theorem closing?_opening (s : Text) :
    Html.closing? ('!' :: '-' :: '-' :: s) = some Comment.closing := by
  have hraw : Html.rawClosing? ('!' :: '-' :: '-' :: s) = none := by
    simp [Html.rawClosing?, Html.rawElements, dropPrefixIgnoringCase?, lowerAscii]
  rw [Html.closing?, hraw]
  rfl

theorem leaves_opening {st : State} (hst : st.containers = [])
    {s kept rest : Text}
    (h : Leaf.ReadsComment (Comment.opening ++ s) kept rest) :
    ∃ lines, lines.flatten = kept ∧
      leaves st (Comment.opening ++ s) =
        .html lines :: leaves st.finishList rest := by
  obtain ⟨rfl, rfl⟩ := h
  have hitem : Opened.listItem? 0 (.start (Comment.opening ++ s)) = none := by
    simp [Opened.listItem?, Cursor.start, afterNumber?, Comment.opening]
  have hhtml : leafBlock.htmlBlock? [] 0 (Comment.opening ++ s) =
      some (Leaf.htmlUntil [] Comment.closing 0 (Comment.opening ++ s)) := by
    simp only [Comment.opening, List.cons_append, List.nil_append,
      leafBlock.htmlBlock?, closing?_opening]
  have hnext : nextBlock st (Comment.opening ++ s) =
      (some (.html (Leaf.htmlUntil [] Comment.closing 0 (Comment.opening ++ s)).1),
        st.finishList,
        (Leaf.htmlUntil [] Comment.closing 0 (Comment.opening ++ s)).2) := by
    rw [Comment.opening, List.cons_append] at hitem hhtml ⊢
    rw [nextBlock_visible hst (by decide) (by decide) (by decide) hitem, hhtml]
  refine ⟨_, rfl, ?_⟩
  exact leaves_of_nextBlock hnext

/-- A closing delimiter alone on its line is the beginning of a paragraph and
of nothing else. -/
theorem leaves_closing {st : State} (hst : st.containers = []) {t next : Text}
    (ht : EndsLine t next) :
    leaves st (Comment.closing ++ t) =
      leaves st.finishList (Paragraph.afterLines [] (Comment.closing ++ t)) := by
  have hrule : afterThematicBreak? (Comment.closing ++ t) = none := by
    simp [Comment.closing, afterThematicBreak?, afterRule?]
  have hitem : Opened.listItem? 0 (.start (Comment.closing ++ t)) = none := by
    simp [Comment.closing, Opened.listItem?, Cursor.start, afterThematicBreak?,
      afterRule?, Opened.listItem?.content, Cursor.skip, Cursor.skipText,
      Cursor.atLineEnd]
  have hhtml : leafBlock.htmlBlock? [] 0 (Comment.closing ++ t) = none := by
    simp [Comment.closing, leafBlock.htmlBlock?]
  have hheading : afterHeadingMarks? (Comment.closing ++ t) = none := by
    simp [Comment.closing, afterHeadingMarks?, runLength]
  have hfence : fence? (Comment.closing ++ t) = none := by
    simp [Comment.closing, fence?]
  have hdefinition : LinkDefinition.after? [] (Comment.closing ++ t) = none := by
    simp [Comment.closing, LinkDefinition.after?]
  have htable : Table.afterHead? [] (Comment.closing ++ t) = none := by
    rcases ht with ⟨rfl, rfl⟩ | rfl <;>
      simp [Comment.closing, Table.afterHead?, Table.headPipes, Table.body?]
  have hprose : afterDefinitions [] (Comment.closing ++ t) =
      Paragraph.afterLines [] (Comment.closing ++ t) := by
    rw [afterDefinitions]
    split
    · rw [Paragraph.after, htable]
    · rename_i h
      cases hdefinition.symm.trans h
  have hnext : nextBlock st (Comment.closing ++ t) =
      (none, st.finishList, Paragraph.afterLines [] (Comment.closing ++ t)) := by
    rw [← hprose]
    rw [Comment.closing, List.cons_append] at hrule hitem hhtml hheading hfence ⊢
    rw [nextBlock_visible hst (by decide) (by decide) (by decide) hitem, hhtml,
      hrule, hheading, hfence]
  exact leaves_of_nextBlock hnext

namespace Paragraph

theorem afterLines_end {t : Text} (ht : EndsLine t []) :
    afterLines [] (Comment.closing ++ t) = [] := by
  rw [Comment.closing, List.cons_append, afterLines]
  rcases ht with ⟨rfl, -⟩ | rfl <;>
    simp [dropProseLine, Cursor.start, Cursor.skip, Cursor.skipText,
      afterUnderline?, interruptsParagraph, blockInterrupts, afterLineEnd?]

/-- What becomes of a line with something visible at its beginning. -/
theorem afterLines_visible {c : Char} (s : Text)
    (hvisible : isSpacing c = false) :
    afterLines [] (Comment.closing ++ '\n' :: c :: s) =
      if (afterUnderline? (c :: s)).isSome then (afterUnderline? (c :: s)).getD []
      else if interruptsParagraph [] true (c :: s) then c :: s
      else afterLines [] (c :: s) := by
  obtain ⟨hspace, htab, hfeed, hreturn⟩ := ne_of_isSpacing hvisible
  have hnext : dropProseLine (Comment.closing ++ '\n' :: c :: s) = c :: s := rfl
  have hskip : (Cursor.mk (c :: s) 0 0).skipAll.rest = c :: s := by
    simp [Cursor.skipAll, hspace, htab]
  have hend : (Cursor.mk (c :: s) 0 0).skipAll.atLineEnd = false := by
    rw [Cursor.atLineEnd, hskip]
    simp [hfeed, hreturn]
  rw [Comment.closing, List.cons_append] at hnext ⊢
  rw [afterLines, hnext, Container.inside_nil, Container.allContinued_nil,
    Cursor.skip_start s 4 hspace htab]
  simp [Cursor.start, hend, hskip]

/-- A block that may interrupt a paragraph ends it. -/
theorem afterLines_interrupted {c : Char} {s : Text}
    (hvisible : isSpacing c = false)
    (hunderline : afterUnderline? (c :: s) = none)
    (hblock : blockInterrupts false (c :: s) = true) :
    afterLines [] (Comment.closing ++ '\n' :: c :: s) = c :: s := by
  rw [afterLines_visible s hvisible, hunderline, interruptsParagraph,
    Bool.not_true, hblock]
  rfl

/-- Another closing delimiter goes on with it. -/
theorem afterLines_closing (t : Text) :
    afterLines [] (Comment.closing ++ '\n' :: (Comment.closing ++ t)) =
      afterLines [] (Comment.closing ++ t) := by
  have hunderline : afterUnderline? (Comment.closing ++ t) = none := by
    simp [Comment.closing, afterUnderline?, runLength, afterBlankLine?,
      isInlineSpacing, afterLineEnd?]
  have hinterrupts :
      interruptsParagraph [] true (Comment.closing ++ t) = false := by
    simp [Comment.closing, interruptsParagraph, blockInterrupts, afterLineEnd?,
      afterThematicBreak?, afterRule?, afterHeadingMarks?, runLength, fence?,
      itemInterrupts, listMarker?, Html.interrupts, afterFootnoteMark?,
      Table.interrupts]
  rw [Comment.closing, List.cons_append] at hunderline hinterrupts
  rw [Comment.closing, List.cons_append]
  have hline := afterLines_visible (c := '-') (['-', '>'] ++ t) (by decide)
  rw [hunderline, hinterrupts] at hline
  exact hline

end Paragraph

end Markdown

end Tangle
