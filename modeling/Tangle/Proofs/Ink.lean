import Tangle.Proofs.Leaves
import Tangle.Proofs.Suffix

/-!
# The parser keeps what it was given, once and in order

The ink of a text is what is left of it without its blank characters. Reading a
leaf block splits the ink of the text: some of it becomes the leaf, a later part
is left for the blocks behind it, and nothing is in both. Blanks are set aside
because they are the only characters the parser makes up or exchanges: a tab
used up in part turns into spaces, and a carriage return before a line feed is
dropped.

`Keeps s kept rest` says this of one reader. It composes along a block, line by
line, and along a document, block by block, so that in the end the ink of all
literals together is a subsequence of the ink of the document
(`ink_parseBlocks`). Every text that a reader only passes over costs nothing
but the suffix lemma for that reader.
-/

namespace Tangle

/-- What a text holds besides blank characters. -/
def ink (s : Text) : Text := s.filter fun c => !isBlank c

@[simp] theorem ink_append (s t : Text) : ink (s ++ t) = ink s ++ ink t :=
  List.filter_append ..

theorem ink_sublist {s t : Text} (h : s.Sublist t) : (ink s).Sublist (ink t) :=
  h.filter _

@[simp] theorem ink_spaces (n : Nat) : ink (Text.spaces n) = [] := by
  simp only [ink, Text.spaces, List.filter_eq_nil_iff]
  intro c hc
  rw [List.eq_of_mem_replicate hc]
  decide

namespace Markdown

theorem unifyLineEnd_sublist (s : Text) : (unifyLineEnd s).Sublist s := by
  fun_induction unifyLineEnd s with
  | case1 => exact List.Sublist.refl _
  | case2 c h => exact List.sublist_cons_self ..
  | case3 c h => exact List.Sublist.refl _
  | case4 c s _ ih => exact ih.cons_cons c

/-- `kept` and `rest` hold ink from different parts of `s`, and that of `kept`
comes first. -/
def Keeps (s kept rest : Text) : Prop := (ink kept ++ ink rest).Sublist (ink s)

namespace Keeps

theorem nothing {s rest : Text} (h : rest <:+ s) : Keeps s [] rest :=
  ink_sublist h.sublist

theorem of_suffix {s t kept rest : Text} (h : Keeps t kept rest) (ht : t <:+ s) :
    Keeps s kept rest :=
  List.Sublist.trans h (ink_sublist ht.sublist)

theorem of_sublist {s kept kept' rest : Text} (h : Keeps s kept rest)
    (hk : kept'.Sublist kept) : Keeps s kept' rest :=
  List.Sublist.trans ((ink_sublist hk).append_right _) h

/-- Two readers, one behind the other. -/
theorem trans {s t rest kept₁ kept₂ : Text} (h₁ : Keeps s kept₁ t)
    (h₂ : Keeps t kept₂ rest) : Keeps s (kept₁ ++ kept₂) rest := by
  have h : (ink kept₁ ++ (ink kept₂ ++ ink rest)).Sublist (ink kept₁ ++ ink t) :=
    List.Sublist.append_left h₂ _
  rw [Keeps, ink_append, List.append_assoc]
  exact h.trans h₁

theorem line (owed : Nat) (s : Text) :
    Keeps s (Leaf.lineText owed (splitLine s).1) (splitLine s).2 := by
  have h : (ink (unifyLineEnd (splitLine s).1) ++ ink (splitLine s).2).Sublist
      (ink (splitLine s).1 ++ ink (splitLine s).2) :=
    (ink_sublist (unifyLineEnd_sublist _)).append_right _
  rw [← ink_append (splitLine s).1, splitLine_append] at h
  rw [Keeps, Leaf.lineText, ink_append, ink_spaces, List.nil_append]
  exact h

end Keeps

/-! ## Leaf blocks -/

namespace Leaf

theorem keeps_fenced (cs : List Container) (mark : Char) (width indent : Nat)
    (s : Text) : Keeps s (fenced cs mark width indent s).1.flatten
      (fenced cs mark width indent s).2 := by
  fun_induction fenced cs mark width indent s with
  | case1 => exact .nothing List.suffix_rfl
  | case2 c t _ => exact .nothing (afterBlankLine?_getD_suffix _)
  | case3 c t _ cur near rest h =>
      split at h
      · cases h
      · refine .nothing (List.IsSuffix.trans ?_ (Container.ahead_suffix cs _ indent))
        exact (afterClosingFence?_suffix h).trans (Cursor.skip_suffix _ cur)
  | case4 c t _ cur near _ lines rest h ih =>
      rw [h] at ih
      exact ((Keeps.line cur.owed cur.rest).trans ih).of_suffix
        (Container.ahead_suffix cs _ indent)

theorem keeps_indented (cs : List Container) (blank : Bool) (owed : Nat)
    (s : Text) : Keeps s ((indented cs blank owed s).1.map Prod.snd).flatten
      (indented cs blank owed s).2 := by
  fun_induction indented cs blank owed s with
  | case1 => exact .nothing List.suffix_rfl
  | case2 blank owed c t next out ahead _ =>
      have h : Keeps (c :: t) (lineText owed (splitLine (c :: t)).1) next :=
        .line owed (c :: t)
      simpa [out] using h
  | case3 blank owed c t next out ahead _ lines rest h ih =>
      rw [h] at ih
      exact (Keeps.line owed (c :: t)).trans
        (ih.of_suffix (Container.ahead_suffix cs next 4))

theorem dropBlankEnd_flatten_sublist (lines : List (Bool × Text)) :
    (dropBlankEnd lines).flatten.Sublist (lines.map Prod.snd).flatten := by
  have hsuffix : lines.reverse.dropWhile Prod.fst <:+ lines.reverse :=
    List.dropWhile_suffix _
  obtain ⟨blanks, hblanks⟩ := List.reverse_prefix.2 hsuffix
  rw [List.reverse_reverse] at hblanks
  have hlines :
      lines.map Prod.snd = dropBlankEnd lines ++ blanks.map Prod.snd := by
    rw [dropBlankEnd, ← List.map_append, hblanks]
  rw [hlines, List.flatten_append]
  exact List.sublist_append_left ..

theorem keeps_htmlUntil (cs : List Container) (closing : Text) (owed : Nat)
    (s : Text) : Keeps s (htmlUntil cs closing owed s).1.flatten
      (htmlUntil cs closing owed s).2 := by
  fun_induction htmlUntil cs closing owed s with
  | case1 => exact .nothing List.suffix_rfl
  | case2 owed c t line next cur _ =>
      have h : Keeps (c :: t) (lineText owed line) next := .line owed (c :: t)
      simpa using h
  | case3 owed c t line next cur _ lines rest h ih =>
      rw [h] at ih
      exact (Keeps.line owed (c :: t)).trans
        (ih.of_suffix (Container.inside_suffix cs next))

theorem keeps_htmlUntilBlank (cs : List Container) (owed : Nat) (s : Text) :
    Keeps s (htmlUntilBlank cs owed s).1.flatten
      (htmlUntilBlank cs owed s).2 := by
  fun_induction htmlUntilBlank cs owed s with
  | case1 => exact .nothing List.suffix_rfl
  | case2 owed c t next cur out _ =>
      have h : Keeps (c :: t) out next := .line owed (c :: t)
      simpa using h
  | case3 owed c t next cur out _ lines rest h ih =>
      rw [h] at ih
      exact (Keeps.line owed (c :: t)).trans
        (ih.of_suffix (Container.inside_suffix cs next))

end Leaf

theorem keeps_htmlBlock? {cs : List Container} {indent : Nat} {s rest : Text}
    {lines : List Text}
    (h : leafBlock.htmlBlock? cs indent s = some (lines, rest)) :
    Keeps s lines.flatten rest := by
  unfold leafBlock.htmlBlock? at h
  split at h
  · rename_i s
    split at h
    · rename_i closing _
      have hk := Leaf.keeps_htmlUntil cs closing indent ('<' :: s)
      rw [Option.some.inj h] at hk
      exact hk
    · split at h
      · have hk := Leaf.keeps_htmlUntilBlank cs indent ('<' :: s)
        rw [Option.some.inj h] at hk
        exact hk
      · cases h
  · cases h

/-- What an optional leaf adds to the text that is kept. -/
def bodyOf (leaf? : Option Leaf) : Text := (leaf?.map Leaf.body).getD []

theorem keeps_leafBlock (st : State) (cur : Cursor) :
    Keeps cur.rest (bodyOf (leafBlock st cur).1) (leafBlock st cur).2.2 := by
  have ahead_suffix {indent : Nat} {ahead : Cursor}
      (h : cur.indent 4 = (indent, ahead)) : ahead.rest <:+ cur.rest := by
    rw [← show (cur.indent 4).2 = ahead by rw [h]]
    exact Cursor.skip_suffix 4 cur
  fun_cases leafBlock st cur with
  | case1 next hb => exact .nothing (afterBlankLine?_suffix hb)
  | case2 _ ahead s closed cs lines rest hi ha =>
      have hk := Leaf.keeps_indented cs false ahead.owed s
      rw [hi] at hk
      exact (hk.of_sublist (Leaf.dropBlankEnd_flatten_sublist lines)).of_suffix
        (ahead_suffix ha)
  | case3 _ indent ahead ha s closed cs _ lines rest hh =>
      exact (keeps_htmlBlock? hh).of_suffix (ahead_suffix ha)
  | case4 _ indent ahead ha s closed cs _ _ rest hr =>
      exact .nothing ((afterThematicBreak?_suffix hr).trans (ahead_suffix ha))
  | case5 _ indent ahead ha s closed cs _ _ _ rest hr =>
      have hrest : rest <:+ cur.rest :=
        (afterHeadingMarks?_suffix hr).trans (ahead_suffix ha)
      exact .nothing ((dropProseLine_suffix rest).trans hrest)
  | case6 _ indent ahead ha s closed cs _ _ _ _ mark width _ info body hl lines rest hf =>
      have hk := Leaf.keeps_fenced cs mark width indent body
      rw [hf] at hk
      have hbody : body <:+ ahead.rest := by
        have h := splitLine_suffix (ahead.rest.drop width)
        rw [show splitLine (ahead.rest.drop width) = (info, body) from hl] at h
        exact h.trans (List.drop_suffix ..)
      exact hk.of_suffix (hbody.trans (ahead_suffix ha))
  | case7 _ indent ahead ha s closed cs =>
      exact .nothing ((afterDefinitions_suffix cs s).trans (ahead_suffix ha))

theorem keeps_nextBlock (st : State) (line : Text) :
    Keeps line (bodyOf (nextBlock st line).1) (nextBlock st line).2.2 := by
  have hcur := Container.continued_suffix st.containers (.start line)
  have hopened := (Opened.text_ofLine_suffix
    (st.popTo (Container.continued st.containers (.start line)).1)
    (Container.continued st.containers (.start line)).2).trans hcur
  unfold nextBlock
  dsimp only
  split
  · rename_i st' cur h
    rw [h] at hopened
    exact (keeps_leafBlock st' cur).of_suffix hopened
  · rename_i st' s h
    rw [h] at hopened
    exact .nothing ((Paragraph.after_suffix _ s).trans hopened)
  · rename_i st' next h
    rw [h] at hopened
    exact .nothing hopened

/-! ## Documents -/

theorem ink_leaves (st : State) (s : Text) :
    (ink ((leaves st s).flatMap Leaf.body)).Sublist (ink s) := by
  fun_induction leaves st s with
  | case1 st => exact List.Sublist.refl _
  | case2 st c t ih =>
      have hbody : (nextBlock st (c :: t)).1.toList.flatMap Leaf.body =
          bodyOf (nextBlock st (c :: t)).1 := by
        cases (nextBlock st (c :: t)).1 <;> simp [bodyOf]
      rw [List.flatMap_append, ink_append, hbody]
      exact (List.Sublist.append_left ih _).trans (keeps_nextBlock st (c :: t))

/-- The literals of a document are made of different parts of it, in order, if
blanks are left out of account. -/
theorem ink_parseBlocks (s : Text) :
    (ink ((parseBlocks s).flatMap Block.literal)).Sublist (ink s) := by
  have h := ink_leaves .initial s
  rw [parseBlocks_eq_map, List.flatMap_map]
  simpa only [Leaf.literal_block] using h

end Markdown

end Tangle
