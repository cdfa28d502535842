import Tangle.Proofs.Leaves

/-!
# The parser outside all containers

A document made of fences and comments never opens a container. Then a line
that does not begin with a blank or with the mark of a container is the
beginning of a leaf block, and the constructs a leaf block can be are tried one
after the other. The lemmas here say so once, for every construct.
-/

namespace Tangle.Markdown

namespace Cursor

theorem skip_start {c : Char} (s : Text) (n : Nat) (hspace : c ≠ ' ')
    (htab : c ≠ '\t') : (start (c :: s)).skip n = (n, start (c :: s)) := by
  cases n with
  | zero => rfl
  | succ n => simp [start, skip, skipText, hspace, htab]

theorem indent_start {c : Char} (s : Text) (hspace : c ≠ ' ') (htab : c ≠ '\t') :
    (start (c :: s)).indent 4 = (0, start (c :: s)) := by
  rw [indent, skip_start s 4 hspace htab, Nat.sub_self]

end Cursor

@[simp] theorem Container.allContinued_nil (line : Text) :
    Container.allContinued [] line = true := rfl

@[simp] theorem Container.inside_nil (line : Text) :
    Container.inside [] line = .start line := rfl

theorem Opened.ofLine_start {c : Char} {s : Text} (st : State)
    (hspace : c ≠ ' ') (htab : c ≠ '\t') (hfootnote : c ≠ '[') (hquote : c ≠ '>')
    (hitem : listItem? 0 (.start (c :: s)) = none) :
    ofLine st (.start (c :: s)) = .leaf st (.start (c :: s)) := by
  have hmark : afterFootnoteMark? (c :: s) = none := by
    simp [afterFootnoteMark?, hfootnote]
  have hchar : (Cursor.start (c :: s)).char? '>' = none := by
    simp [Cursor.char?, Cursor.start, hquote]
  have hindent := Cursor.indent_start s hspace htab
  have hnone : ¬ ((Cursor.start (c :: s)).indent 4).1 = 4 := by
    rw [hindent]
    exact Nat.zero_ne_add_one 3
  rw [ofLine]
  dsimp only
  rw [if_neg hnone]
  split
  · rename_i hf
    rw [hindent] at hf
    cases hmark.symm.trans hf
  · split
    · rename_i hi
      rw [hindent] at hi
      cases hitem.symm.trans hi
    · split
      · rename_i hq
        rw [hindent] at hq
        cases hchar.symm.trans hq
      · rfl

/-- Outside all containers the line is read from its beginning. -/
theorem nextBlock_outside {st : State} (hst : st.containers = []) (line : Text) :
    nextBlock st line =
      match Opened.ofLine st (.start line) with
      | .leaf st cur => leafBlock st cur
      | .prose st s => (none, st, Paragraph.after st.containers s)
      | .nothing st next => (none, st, next) := by
  have hpop : st.popTo 0 = st := by
    simp [State.popTo, hst, Nat.repeat]
  cases hopened : Opened.ofLine st (.start line) <;>
    simp only [nextBlock, hst, Container.continued, hpop, hopened]

theorem nextBlock_start {c : Char} {s : Text} {st : State}
    (hst : st.containers = []) (hspace : c ≠ ' ') (htab : c ≠ '\t')
    (hfootnote : c ≠ '[') (hquote : c ≠ '>')
    (hitem : Opened.listItem? 0 (.start (c :: s)) = none) :
    nextBlock st (c :: s) = leafBlock st (.start (c :: s)) := by
  rw [nextBlock_outside hst,
    Opened.ofLine_start st hspace htab hfootnote hquote hitem]

theorem State.containers_finishList {st : State} (hst : st.containers = []) :
    st.finishList.containers = [] := by
  cases hb : st.lastBlank <;>
    simp [finishList, finishEmptyItem, top?, loosen, hst, hb]

/-- A blank line between two blocks. -/
theorem nextBlock_lineFeed {st : State} (hst : st.containers = []) (s : Text) :
    ∃ st', nextBlock st ('\n' :: s) = (none, st', s) ∧ st'.containers = [] := by
  have hleaf : leafBlock st (.start ('\n' :: s)) = (none, st.noteBlank, s) := rfl
  refine ⟨st.noteBlank, ?_, ?_⟩
  · rw [nextBlock_start hst (by decide) (by decide) (by decide) (by decide), hleaf]
    simp [Opened.listItem?, Cursor.start, afterNumber?]
  · simp [State.noteBlank, State.top?, hst]

theorem leaves_lineFeed {st : State} (hst : st.containers = []) (s : Text) :
    ∃ st', leaves st ('\n' :: s) = leaves st' s ∧ st'.containers = [] := by
  obtain ⟨st', hnext, hst'⟩ := nextBlock_lineFeed hst s
  exact ⟨st', by rw [leaves_of_nextBlock hnext]; rfl, hst'⟩

/-- `t` ends the line before it, and `next` is the text of the next line. -/
def EndsLine (t next : Text) : Prop := t = [] ∧ next = [] ∨ t = '\n' :: next

/-! ## Leaf blocks -/

theorem isSpacing_of_isInlineSpacing {c : Char} (h : isInlineSpacing c = true) :
    isSpacing c = true := by
  simp only [isInlineSpacing, Bool.or_eq_true, decide_eq_true_eq] at h
  rcases h with ((rfl | rfl) | rfl) | rfl <;> decide

theorem ne_of_isSpacing {c : Char} (h : isSpacing c = false) :
    c ≠ ' ' ∧ c ≠ '\t' ∧ c ≠ '\n' ∧ c ≠ '\r' := by
  refine ⟨?_, ?_, ?_, ?_⟩ <;>
    · rintro rfl
      exact absurd h (by decide)

theorem afterLineEnd?_of_ne {c : Char} (hfeed : c ≠ '\n') (hreturn : c ≠ '\r')
    (s : Text) : afterLineEnd? (c :: s) = none := by
  simp [afterLineEnd?, hfeed, hreturn]

/-- At a visible character outside all containers, which is not the mark of
another one, the constructs are tried one after the other. -/
theorem nextBlock_visible {c : Char} {s : Text} {st : State}
    (hst : st.containers = []) (hvisible : isSpacing c = false)
    (hfootnote : c ≠ '[') (hquote : c ≠ '>')
    (hitem : Opened.listItem? 0 (.start (c :: s)) = none) :
    nextBlock st (c :: s) =
      match leafBlock.htmlBlock? [] 0 (c :: s) with
      | some (lines, rest) => (some (.html lines), st.finishList, rest)
      | none =>
        match afterThematicBreak? (c :: s) with
        | some rest => (none, st.finishList, rest)
        | none =>
          match afterHeadingMarks? (c :: s) with
          | some rest => (none, st.finishList, dropProseLine rest)
          | none =>
            match fence? (c :: s) with
            | some (mark, width) =>
              let (info, body) := splitLine ((c :: s).drop width)
              let (lines, rest) := Leaf.fenced [] mark width 0 body
              (some (.code (some (infoString info)) lines), st.finishList, rest)
            | none => (none, st.finishList, afterDefinitions [] (c :: s)) := by
  obtain ⟨hspace, htab, hfeed, hreturn⟩ := ne_of_isSpacing hvisible
  have hinline : ¬ isInlineSpacing c = true := by
    intro h
    rw [isSpacing_of_isInlineSpacing h] at hvisible
    cases hvisible
  have hblank : afterBlankLine? (c :: s) = none := by
    rw [afterBlankLine?, List.dropWhile_cons_of_neg hinline,
      afterLineEnd?_of_ne hfeed hreturn]
  have hrest : (Cursor.start (c :: s)).rest = c :: s := rfl
  rw [nextBlock_start hst hspace htab hfootnote hquote hitem, leafBlock, hrest,
    hblank]
  dsimp only
  rw [Cursor.indent_start s hspace htab, State.containers_finishList hst]
  rfl

end Tangle.Markdown
