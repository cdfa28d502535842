import Tangle.Markdown.Block

/-!
# What a reader leaves is the end of what it was given

Every reader of the parser takes text from the front and hands back the rest.
None of them puts anything in front of the rest, drops a character out of its
middle or looks at a text of its own, so the rest is always a suffix of the
text the reader was given. That is the half of the bookkeeping that concerns
text which is passed over; the other half, about the text that is kept, needs
nothing else from the readers.

The file goes through them in the order in which they build on each other.
The proofs follow the length bounds that stand beside the definitions, with
transitivity of suffixes in place of arithmetic. The one cursor operation that
does more than drop characters is the tab used up in part: what it still owes
is kept beside the text and not in it.
-/

namespace Tangle.Markdown

/-! ## Lines -/

theorem afterLineEnd?_suffix {s r : Text} (h : afterLineEnd? s = some r) :
    r <:+ s := by
  unfold afterLineEnd? at h
  split at h <;> cases h
  · exact List.suffix_rfl
  · exact List.suffix_cons ..
  · exact (List.suffix_cons ..).trans (List.suffix_cons ..)
  · exact List.suffix_cons ..

theorem afterBlankLine?_suffix {s r : Text} (h : afterBlankLine? s = some r) :
    r <:+ s :=
  (afterLineEnd?_suffix h).trans (List.dropWhile_suffix _)

theorem afterBlankLine?_getD_suffix (s : Text) :
    (afterBlankLine? s).getD s <:+ s := by
  cases h : afterBlankLine? s with
  | none => exact List.suffix_rfl
  | some r => exact afterBlankLine?_suffix h

theorem splitLine_suffix (s : Text) : (splitLine s).2 <:+ s :=
  ⟨(splitLine s).1, splitLine_append s⟩

theorem dropProseLine_suffix (s : Text) : dropProseLine s <:+ s := by
  fun_induction dropProseLine s with
  | case1 => exact List.suffix_rfl
  | case2 s => exact List.suffix_cons ..
  | case3 s => exact (List.suffix_cons ..).trans (List.suffix_cons ..)
  | case4 s => exact List.suffix_cons ..
  | case5 c s _ _ _ ih => exact ih.trans (List.suffix_cons ..)

/-! ## Cursors and containers -/

namespace Cursor

theorem skipText_suffix (column : Nat) (s : Text) (n : Nat) :
    (skipText column s n).2.rest <:+ s := by
  fun_induction skipText column s n with
  | case1 column s n ih => exact ih.trans (List.suffix_cons ..)
  | case2 column s n h ih => exact ih.trans (List.suffix_cons ..)
  | case3 column s n h => exact List.suffix_cons ..
  | case4 column s n h₁ h₂ => exact List.suffix_rfl

theorem skip_suffix (n : Nat) (c : Cursor) : (c.skip n).2.rest <:+ c.rest := by
  unfold skip
  split
  · exact List.suffix_rfl
  · exact skipText_suffix ..

theorem skipAll_suffix (c : Cursor) : c.skipAll.rest <:+ c.rest :=
  List.dropWhile_suffix _

theorem char?_suffix {d : Char} {c c' : Cursor} (h : c.char? d = some c') :
    c'.rest <:+ c.rest := by
  unfold char? at h
  split at h
  · cases h
  · rename_i e s hs
    split at h
    · cases h
      rw [hs]
      exact List.suffix_cons ..
    · cases h

end Cursor

namespace Container

theorem continue?_suffix {cur cur' : Cursor} {c : Container}
    (h : c.continue? cur = some cur') : cur'.rest <:+ cur.rest := by
  cases c with
  | list marker tight =>
      cases h
      exact List.suffix_rfl
  | quote =>
      obtain ⟨d, hd, rfl⟩ := Option.map_eq_some_iff.1 h
      exact (Cursor.skip_suffix 1 d).trans
        ((Cursor.char?_suffix hd).trans (Cursor.skip_suffix 3 cur))
  | item n =>
      simp only [continue?] at h
      split at h <;> cases h
      exact Cursor.skip_suffix n cur
  | footnote =>
      simp only [continue?] at h
      split at h <;> cases h
      exact Cursor.skip_suffix 4 cur

theorem continued_suffix (cs : List Container) (cur : Cursor) :
    (continued cs cur).2.rest <:+ cur.rest := by
  induction cs generalizing cur with
  | nil => exact List.suffix_rfl
  | cons c cs ih =>
      unfold continued
      split
      · exact List.suffix_rfl
      · rename_i cur' h
        exact (ih cur').trans (continue?_suffix h)

theorem inside_suffix (cs : List Container) (line : Text) :
    (inside cs line).rest <:+ line := continued_suffix ..

/-- Most readers go on from the text that is left behind the containers of a
line and up to four columns. -/
theorem ahead_suffix (cs : List Container) (line : Text) (n : Nat) :
    ((inside cs line).skip n).2.rest <:+ line :=
  (Cursor.skip_suffix n _).trans (inside_suffix cs line)

end Container

/-! ## Beginnings of blocks -/

theorem afterRule?_suffix {c : Char} {n : Nat} {s r : Text}
    (h : afterRule? c n s = some r) : r <:+ s := by
  fun_induction afterRule? c n s with
  | case1 => cases h; exact List.suffix_rfl
  | case2 => cases h
  | case3 => exact afterLineEnd?_suffix h
  | case4 => cases h
  | case5 _ _ _ ih => exact (ih h).trans (List.suffix_cons ..)
  | case6 _ _ _ _ _ _ ih => exact (ih h).trans (List.suffix_cons ..)
  | case7 => cases h

theorem afterThematicBreak?_suffix {s r : Text}
    (h : afterThematicBreak? s = some r) : r <:+ s := by
  unfold afterThematicBreak? at h
  split at h
  · cases h
  · split at h
    · exact afterRule?_suffix h
    · cases h

theorem afterHeadingMarks?_suffix {s r : Text}
    (h : afterHeadingMarks? s = some r) : r <:+ s := by
  simp only [afterHeadingMarks?] at h
  split at h <;> cases h
  exact List.drop_suffix ..

theorem afterUnderline?_suffix {s r : Text} (h : afterUnderline? s = some r) :
    r <:+ s := by
  unfold afterUnderline? at h
  split at h
  · cases h
  · split at h
    · exact (afterBlankLine?_suffix h).trans (List.drop_suffix ..)
    · cases h

theorem afterFootnoteLabel?_suffix {length : Nat} {written : Bool}
    {s r : Text} (h : afterFootnoteLabel? length written s = some r) :
    r <:+ s := by
  fun_induction afterFootnoteLabel? length written s with
  | case1 => cases h
  | case2 => cases h
  | case3 => cases h; exact List.suffix_cons ..
  | case4 => cases h
  | case5 => cases h
  | case6 _ _ _ _ _ _ ih =>
      exact (ih h).trans ((List.suffix_cons ..).trans (List.suffix_cons ..))
  | case7 _ _ _ _ _ _ _ _ ih => exact (ih h).trans (List.suffix_cons ..)
  | case8 _ _ _ _ _ _ _ _ ih => exact (ih h).trans (List.suffix_cons ..)

theorem afterFootnoteMark?_suffix {s r : Text}
    (h : afterFootnoteMark? s = some r) : r <:+ s := by
  unfold afterFootnoteMark? at h
  split at h
  · rename_i s
    split at h
    · rename_i hl
      cases h
      have hlabel := (List.suffix_cons ..).trans (afterFootnoteLabel?_suffix hl)
      exact hlabel.trans ((List.suffix_cons ..).trans (List.suffix_cons ..))
    · cases h
  · cases h

/-! ## Tables -/

namespace Table

theorem readRow_suffix {row : Row} {s rest : Text} {columns : Nat}
    (h : readRow row s = some (columns, rest)) : rest <:+ s := by
  have finish_eq {row : Row} {t : Text}
      (h : readRow.finish row t = some (columns, rest)) : rest = t := by
    unfold readRow.finish at h
    split at h <;> cases h
    rfl
  fun_induction readRow row s with
  | case1 =>
      cases finish_eq h
      exact List.suffix_rfl
  | case2 row c s hc =>
      rw [finish_eq h]
      cases he : afterLineEnd? (c :: s) with
      | none => exact List.nil_suffix
      | some r => exact afterLineEnd?_suffix he
  | case3 _ _ _ ih => exact (ih h).trans (List.suffix_cons ..)
  | case4 _ _ _ _ ih => exact (ih h).trans (List.suffix_cons ..)
  | case5 _ _ _ _ _ ih => exact (ih h).trans (List.suffix_cons ..)
  | case6 _ _ _ _ _ _ _ ih => exact (ih h).trans (List.suffix_cons ..)
  | case7 => cases h
  | case8 => cases h

theorem delimiterRow?_suffix {s rest : Text} {columns : Nat}
    (h : delimiterRow? s = some (columns, rest)) : rest <:+ s := by
  simp only [delimiterRow?] at h
  split at h
  · cases h
  · split at h
    · cases h
    · exact (readRow_suffix h).trans (List.suffix_cons ..)
    · exact readRow_suffix h

theorem headPipes_suffix {pipes p : Nat} {behind b s next : Text}
    (h : headPipes pipes behind s = some (p, b, next)) : next <:+ s := by
  fun_induction headPipes pipes behind s with
  | case1 => cases h
  | case2 => cases h; exact List.suffix_cons ..
  | case3 => cases h; exact (List.suffix_cons ..).trans (List.suffix_cons ..)
  | case4 => cases h; exact List.suffix_cons ..
  | case5 _ _ _ ih => exact (ih h).trans (List.suffix_cons ..)
  | case6 _ _ _ _ _ ih =>
      exact (ih h).trans ((List.suffix_cons ..).trans (List.suffix_cons ..))
  | case7 _ _ _ _ _ ih => exact (ih h).trans (List.suffix_cons ..)
  | case8 _ _ _ _ _ _ _ _ _ ih => exact (ih h).trans (List.suffix_cons ..)

theorem afterHead?_suffix {cs : List Container} {line rest : Text}
    (h : afterHead? cs line = some rest) : rest <:+ line := by
  unfold afterHead? at h
  cases hp : headPipes 0 [] line with
  | none => rw [hp] at h; cases h
  | some head =>
      obtain ⟨pipes, behind, next⟩ := head
      rw [hp, body?] at h
      split at h
      · cases h
      · split at h
        · rename_i hd
          split at h <;> cases h
          exact (delimiterRow?_suffix hd).trans
            ((Container.inside_suffix cs next).trans (headPipes_suffix hp))
        · cases h

end Table

/-! ## Link definitions -/

namespace LinkDefinition

theorem continuation?_suffix {cs : List Container} {line r : Text}
    (h : continuation? cs line = some r) : r <:+ line := by
  simp only [continuation?] at h
  split at h
  · cases h
    exact Container.ahead_suffix cs line 4
  · split at h <;> cases h
    exact Container.ahead_suffix cs line 4

theorem nextLine?_suffix {cs : List Container} {s r : Text}
    (h : nextLine? cs s = some r) : r <:+ s := by
  unfold nextLine? at h
  split at h
  · rename_i hl
    exact (continuation?_suffix h).trans (afterLineEnd?_suffix hl)
  · cases h

theorem afterLabel?_suffix {cs : List Container} {length : Nat}
    {written broken : Bool} {s r : Text}
    (h : afterLabel? cs length written broken s = some r) : r <:+ s := by
  fun_induction afterLabel? cs length written broken s with
  | case1 => cases h
  | case2 => cases h
  | case3 => cases h; exact List.suffix_cons ..
  | case4 => cases h
  | case5 length written broken t _ _ ih =>
      exact (ih h).trans ((List.drop_suffix ..).trans (List.suffix_cons ..))
  | case6 => cases h
  | case7 => cases h
  | case8 _ _ _ _ _ _ _ _ _ _ _ hn ih =>
      exact (ih h).trans (nextLine?_suffix hn)
  | case9 _ _ _ _ _ _ _ _ _ _ ih => exact (ih h).trans (List.suffix_cons ..)
  | case10 _ _ _ _ _ _ _ _ _ _ ih => exact (ih h).trans (List.suffix_cons ..)

theorem afterGap?_suffix {cs : List Container} {s r : Text} {broken : Bool}
    (h : afterGap? cs s = some (r, broken)) : r <:+ s := by
  simp only [afterGap?] at h
  split at h
  · cases h
    exact List.dropWhile_suffix _
  · split at h
    · cases h
    · rename_i ht
      split at h <;> cases h
      exact (List.dropWhile_suffix _).trans
        ((nextLine?_suffix ht).trans (List.dropWhile_suffix _))

theorem afterAngled?_suffix {s r : Text} (h : afterAngled? s = some r) :
    r <:+ s := by
  fun_induction afterAngled? s with
  | case1 => cases h
  | case2 => cases h; exact List.suffix_cons ..
  | case3 _ _ _ ih =>
      exact (ih h).trans ((List.suffix_cons ..).trans (List.suffix_cons ..))
  | case4 _ _ _ ih => exact (ih h).trans (List.suffix_cons ..)
  | case5 => cases h
  | case6 _ _ _ _ _ ih => exact (ih h).trans (List.suffix_cons ..)

theorem afterBare?_suffix {depth : Nat} {s r : Text}
    (h : afterBare? depth s = some r) : r <:+ s := by
  fun_induction afterBare? depth s with
  | case1 => cases h; exact List.suffix_rfl
  | case2 => cases h
  | case3 _ _ _ _ ih =>
      exact (ih h).trans ((List.suffix_cons ..).trans (List.suffix_cons ..))
  | case4 _ _ _ _ ih => exact (ih h).trans (List.suffix_cons ..)
  | case5 => cases h; exact List.suffix_rfl
  | case6 => cases h
  | case7 => cases h
  | case8 _ _ _ _ _ ih => exact (ih h).trans (List.suffix_cons ..)
  | case9 => cases h; exact List.suffix_rfl
  | case10 _ _ _ _ _ _ ih => exact (ih h).trans (List.suffix_cons ..)
  | case11 _ _ _ _ _ _ _ ih => exact (ih h).trans (List.suffix_cons ..)

theorem afterDestination?_suffix {s r : Text}
    (h : afterDestination? s = some r) : r <:+ s := by
  unfold afterDestination? at h
  split at h
  · cases h
  · exact (afterAngled?_suffix h).trans (List.suffix_cons ..)
  · split at h
    · cases h
    · exact afterBare?_suffix h

theorem dropEscaped_suffix (s : Text) : dropEscaped s <:+ s := by
  unfold dropEscaped
  split
  · exact List.suffix_rfl
  · split
    · exact List.suffix_rfl
    · exact List.suffix_cons ..

theorem afterTitle?_suffix {cs : List Container} {close : Char} {s r : Text}
    (h : afterTitle? cs close s = some r) : r <:+ s := by
  fun_induction afterTitle? cs close s with
  | case1 => cases h
  | case2 => cases h; exact List.suffix_cons ..
  | case3 => cases h
  | case4 t _ _ ih =>
      exact (ih h).trans ((dropEscaped_suffix t).trans (List.suffix_cons ..))
  | case5 => cases h
  | case6 _ _ _ _ _ _ _ hn ih => exact (ih h).trans (nextLine?_suffix hn)
  | case7 _ _ _ _ _ _ ih => exact (ih h).trans (List.suffix_cons ..)

theorem afterOpenedTitle?_suffix {cs : List Container} {s r : Text}
    (h : afterOpenedTitle? cs s = some r) : r <:+ s := by
  unfold afterOpenedTitle? at h
  split at h
  · exact (afterTitle?_suffix h).trans (List.suffix_cons ..)
  · exact (afterTitle?_suffix h).trans (List.suffix_cons ..)
  · exact (afterTitle?_suffix h).trans (List.suffix_cons ..)
  · cases h

theorem afterColon?_suffix {cs : List Container} {s r : Text}
    (h : afterColon? cs s = some r) : r <:+ s := by
  unfold afterColon? at h
  split at h
  · cases h
  · rename_i hgap
    split at h
    · cases h
    · rename_i bare hbare
      have hb : bare <:+ s :=
        (afterDestination?_suffix hbare).trans (afterGap?_suffix hgap)
      split at h
      · cases h
        exact hb
      · rename_i u broken hu
        -- Without a title the definition ends behind its destination.
        have untitled (h : (if broken = true then some bare else none) = some r) :
            r <:+ s := by
          split at h <;> cases h
          exact hb
        split at h
        · cases h
        · dsimp only at h
          split at h
          · exact untitled h
          · rename_i rest hr
            split at h
            · cases h
              exact (afterOpenedTitle?_suffix hr).trans
                ((afterGap?_suffix hu).trans hb)
            · exact untitled h

theorem after?_suffix {cs : List Container} {s r : Text}
    (h : after? cs s = some r) : r <:+ s := by
  unfold after? at h
  split at h
  · split at h
    · rename_i hl
      have hlabel := (List.suffix_cons ..).trans (afterLabel?_suffix hl)
      exact (afterColon?_suffix h).trans (hlabel.trans (List.suffix_cons ..))
    · cases h
  · cases h

end LinkDefinition

/-! ## Paragraphs -/

namespace Paragraph

theorem afterRows_suffix (cs : List Container) (line : Text) :
    afterRows cs line <:+ line := by
  fun_induction afterRows cs line with
  | case1 => exact List.suffix_rfl
  | case2 => exact List.suffix_rfl
  | case3 c t row _ ih =>
      have hrow : row <:+ c :: t :=
        (Cursor.skipAll_suffix _).trans (Container.inside_suffix cs (c :: t))
      exact ih.trans ((dropProseLine_suffix row).trans hrow)

theorem afterLines_suffix (cs : List Container) (s : Text) :
    afterLines cs s <:+ s := by
  fun_induction afterLines cs s with
  | case1 => exact List.suffix_rfl
  | case2 c t next inner ahead line h =>
      have hline : line <:+ c :: t :=
        (Container.ahead_suffix cs next 4).trans (dropProseLine_suffix (c :: t))
      cases hu : afterUnderline? line with
      | none => exact List.nil_suffix
      | some r => exact (afterUnderline?_suffix hu).trans hline
  | case3 c t next => exact dropProseLine_suffix (c :: t)
  | case4 c t next => exact dropProseLine_suffix (c :: t)
  | case5 c t next inner ahead line text _ _ _ ih =>
      have htext : text.rest <:+ next :=
        (Cursor.skipAll_suffix ahead.2).trans (Container.ahead_suffix cs next 4)
      exact ih.trans (htext.trans (dropProseLine_suffix (c :: t)))

theorem after_suffix (cs : List Container) (s : Text) : after cs s <:+ s := by
  unfold after
  split
  · rename_i body h
    exact (afterRows_suffix cs body).trans (Table.afterHead?_suffix h)
  · exact afterLines_suffix cs s

end Paragraph

theorem afterDefinitions_suffix (cs : List Container) (s : Text) :
    afterDefinitions cs s <:+ s := by
  fun_induction afterDefinitions cs s with
  | case1 s => exact Paragraph.after_suffix cs s
  | case2 s rest h next =>
      exact (afterBlankLine?_getD_suffix rest).trans
        (LinkDefinition.after?_suffix h)
  | case3 s rest h next ahead _ ih =>
      have hnext : next <:+ s :=
        (afterBlankLine?_getD_suffix rest).trans (LinkDefinition.after?_suffix h)
      have hahead : ahead.2.rest <:+ next := Container.ahead_suffix cs next 4
      exact ih.trans ((Cursor.skipAll_suffix ahead.2).trans (hahead.trans hnext))

/-! ## Containers that a line opens -/

namespace Opened

/-- The text that is still to be read. -/
def text : Opened → Text
  | .leaf _ cur => cur.rest
  | .prose _ s => s
  | .nothing _ next => next

theorem listItem?_content_suffix {marker m : Char} {indent width w : Nat}
    {cur inner : Cursor}
    (h : listItem?.content indent marker width cur = some (m, w, inner)) :
    inner.rest <:+ cur.rest := by
  have hone := Cursor.skip_suffix 1 cur
  unfold listItem?.content at h
  dsimp only [Cursor.indent] at h
  split at h
  · split at h
    · cases h; exact hone
    · split at h
      · cases h; exact (Cursor.skip_suffix 4 (cur.skip 1).2).trans hone
      · cases h; exact hone
  · cases h

theorem listItem?_suffix {indent width : Nat} {marker : Char}
    {cur inner : Cursor}
    (h : listItem? indent cur = some (marker, width, inner)) :
    inner.rest <:+ cur.rest := by
  unfold listItem? at h
  split at h
  · cases h
  · rename_i c s hs
    rw [hs]
    split at h
    · split at h
      · cases h
      · exact (listItem?_content_suffix h).trans (List.suffix_cons ..)
    · split at h
      · rename_i n d t hn
        simp only [afterNumber?] at hn
        split at hn
        · cases hn
        · have ht : d :: t <:+ c :: s := by
            rw [← (Prod.mk.inj (Option.some.inj hn)).2]
            exact List.drop_suffix ..
          split at h
          · exact (listItem?_content_suffix h).trans
              ((List.suffix_cons ..).trans ht)
          · cases h
      · cases h

theorem afterTask?_suffix {cur : Cursor} {s : Text}
    (h : afterTask? cur = some s) : s <:+ cur.rest := by
  unfold afterTask? at h
  split at h
  · rename_i c d t ht
    split at h
    · cases h
      refine List.IsSuffix.trans ?_ (ht ▸ Cursor.skip_suffix 3 cur)
      exact (List.suffix_cons ..).trans
        ((List.suffix_cons ..).trans (List.suffix_cons ..))
    · cases h
  · cases h

theorem afterAlert?_suffix {s r : Text} (h : afterAlert? s = some r) :
    r <:+ s := by
  unfold afterAlert? at h
  obtain ⟨tag, _, h⟩ := List.exists_of_findSome?_eq_some h
  split at h
  · rename_i ht
    unfold dropPrefixIgnoringCase? at ht
    split at ht <;> cases ht
    exact (afterBlankLine?_suffix h).trans (List.drop_suffix ..)
  · cases h

theorem text_ofLine_suffix (st : State) (cur : Cursor) :
    (ofLine st cur).text <:+ cur.rest := by
  have ahead_suffix (cur : Cursor) : (cur.indent 4).2.rest <:+ cur.rest :=
    Cursor.skip_suffix 4 cur
  fun_induction ofLine st cur with
  | case1 => exact List.suffix_rfl
  | case2 st cur indent ahead _ s hf ih =>
      have hs : s <:+ cur.rest :=
        (afterFootnoteMark?_suffix hf).trans (ahead_suffix cur)
      exact ih.trans ((List.dropWhile_suffix _).trans hs)
  | case3 st cur indent ahead _ _ marker width inner hi _ next hn =>
      exact (afterBlankLine?_suffix hn).trans
        ((listItem?_suffix hi).trans (ahead_suffix cur))
  | case4 st cur indent ahead _ _ marker width inner hi _ _ s ht next hn =>
      have hs : s <:+ cur.rest :=
        (afterTask?_suffix ht).trans
          ((listItem?_suffix hi).trans (ahead_suffix cur))
      exact (afterBlankLine?_suffix hn).trans hs
  | case5 st cur indent ahead _ _ marker width inner hi _ _ s ht =>
      exact (afterTask?_suffix ht).trans
        ((listItem?_suffix hi).trans (ahead_suffix cur))
  | case6 st cur indent ahead _ _ marker width inner hi _ _ _ ih =>
      exact ih.trans ((listItem?_suffix hi).trans (ahead_suffix cur))
  | case7 st cur indent ahead _ _ _ inner hq _ next ha =>
      have hinner := (Cursor.char?_suffix hq).trans (ahead_suffix cur)
      exact (afterAlert?_suffix ha).trans
        ((Cursor.skip_suffix 1 inner).trans hinner)
  | case8 st cur indent ahead _ _ _ inner hq opened next ha missing line hl =>
      have hinner := (Cursor.char?_suffix hq).trans (ahead_suffix cur)
      have hnext : next <:+ cur.rest :=
        (afterAlert?_suffix ha).trans ((Cursor.skip_suffix 1 inner).trans hinner)
      have hline : line.rest <:+ next := by
        rw [← show _ = line from congrArg Prod.snd hl]
        exact Container.ahead_suffix opened.containers next 4
      exact (Cursor.skipAll_suffix line).trans (hline.trans hnext)
  | case9 st cur indent ahead _ _ _ inner hq _ _ ih =>
      have hinner := (Cursor.char?_suffix hq).trans (ahead_suffix cur)
      exact ih.trans ((Cursor.skip_suffix 1 inner).trans hinner)
  | case10 => exact List.suffix_rfl

end Opened

/-! ## Leaf blocks -/

namespace Leaf

theorem afterClosingFence?_suffix {mark : Char} {width : Nat} {s r : Text}
    (h : afterClosingFence? mark width s = some r) : r <:+ s := by
  unfold afterClosingFence? at h
  split at h
  · cases h; exact List.suffix_rfl
  · split at h
    · cases h
    · exact (afterLineEnd?_suffix h).trans
        ((List.dropWhile_suffix _).trans (List.drop_suffix ..))

theorem fenced_suffix (cs : List Container) (mark : Char) (width indent : Nat)
    (s : Text) : (fenced cs mark width indent s).2 <:+ s := by
  fun_induction fenced cs mark width indent s with
  | case1 => exact List.suffix_rfl
  | case2 c t _ => exact afterBlankLine?_getD_suffix _
  | case3 c t _ cur near rest h =>
      split at h
      · cases h
      · exact ((afterClosingFence?_suffix h).trans (Cursor.skip_suffix _ cur)).trans
          (Container.ahead_suffix cs _ indent)
  | case4 c t _ cur near _ lines rest h ih =>
      rw [h] at ih
      exact (ih.trans (splitLine_suffix cur.rest)).trans
        (Container.ahead_suffix cs _ indent)

theorem indented_suffix (cs : List Container) (blank : Bool) (owed : Nat)
    (s : Text) : (indented cs blank owed s).2 <:+ s := by
  fun_induction indented cs blank owed s with
  | case1 => exact List.suffix_rfl
  | case2 blank owed c t next out ahead _ => exact splitLine_suffix (c :: t)
  | case3 blank owed c t next out ahead _ lines rest h ih =>
      rw [h] at ih
      exact (ih.trans (Container.ahead_suffix cs next 4)).trans
        (splitLine_suffix (c :: t))

theorem htmlUntil_suffix (cs : List Container) (closing : Text) (owed : Nat)
    (s : Text) : (htmlUntil cs closing owed s).2 <:+ s := by
  fun_induction htmlUntil cs closing owed s with
  | case1 => exact List.suffix_rfl
  | case2 owed c t line next cur _ => exact splitLine_suffix (c :: t)
  | case3 owed c t line next cur _ lines rest h ih =>
      rw [h] at ih
      exact (ih.trans (Container.inside_suffix cs next)).trans
        (splitLine_suffix (c :: t))

theorem htmlUntilBlank_suffix (cs : List Container) (owed : Nat) (s : Text) :
    (htmlUntilBlank cs owed s).2 <:+ s := by
  fun_induction htmlUntilBlank cs owed s with
  | case1 => exact List.suffix_rfl
  | case2 owed c t next cur out _ => exact splitLine_suffix (c :: t)
  | case3 owed c t next cur out _ lines rest h ih =>
      rw [h] at ih
      exact (ih.trans (Container.inside_suffix cs next)).trans
        (splitLine_suffix (c :: t))

end Leaf

theorem htmlBlock?_suffix {cs : List Container} {indent : Nat} {s rest : Text}
    {lines : List Text}
    (h : leafBlock.htmlBlock? cs indent s = some (lines, rest)) : rest <:+ s := by
  unfold leafBlock.htmlBlock? at h
  split at h
  · rename_i s
    split at h
    · rename_i closing _
      have hsuffix := Leaf.htmlUntil_suffix cs closing indent ('<' :: s)
      rw [Option.some.inj h] at hsuffix
      exact hsuffix
    · split at h
      · have hsuffix := Leaf.htmlUntilBlank_suffix cs indent ('<' :: s)
        rw [Option.some.inj h] at hsuffix
        exact hsuffix
      · cases h
  · cases h

theorem leafBlock_suffix (st : State) (cur : Cursor) :
    (leafBlock st cur).2.2 <:+ cur.rest := by
  have ahead_suffix {indent : Nat} {ahead : Cursor}
      (h : cur.indent 4 = (indent, ahead)) : ahead.rest <:+ cur.rest := by
    rw [← show (cur.indent 4).2 = ahead by rw [h]]
    exact Cursor.skip_suffix 4 cur
  fun_cases leafBlock st cur with
  | case1 next hb => exact afterBlankLine?_suffix hb
  | case2 _ ahead s closed cs lines rest hi ha =>
      have hsuffix := Leaf.indented_suffix cs false ahead.owed s
      rw [hi] at hsuffix
      exact hsuffix.trans (ahead_suffix ha)
  | case3 _ indent ahead ha s closed cs _ lines rest hh =>
      exact (htmlBlock?_suffix hh).trans (ahead_suffix ha)
  | case4 _ indent ahead ha s closed cs _ _ rest hr =>
      exact (afterThematicBreak?_suffix hr).trans (ahead_suffix ha)
  | case5 _ indent ahead ha s closed cs _ _ _ rest hr =>
      exact (dropProseLine_suffix rest).trans
        ((afterHeadingMarks?_suffix hr).trans (ahead_suffix ha))
  | case6 _ indent ahead ha s closed cs _ _ _ _ mark width _ info body hl lines rest hf =>
      have hsuffix := Leaf.fenced_suffix cs mark width indent body
      rw [hf] at hsuffix
      have hbody : body <:+ ahead.rest := by
        have h := splitLine_suffix (ahead.rest.drop width)
        rw [show splitLine (ahead.rest.drop width) = (info, body) from hl] at h
        exact h.trans (List.drop_suffix ..)
      exact hsuffix.trans (hbody.trans (ahead_suffix ha))
  | case7 _ indent ahead ha s closed cs =>
      exact (afterDefinitions_suffix cs s).trans (ahead_suffix ha)

theorem nextBlock_suffix (st : State) (line : Text) :
    (nextBlock st line).2.2 <:+ line := by
  have hcur := Container.continued_suffix st.containers (.start line)
  have hopened := (Opened.text_ofLine_suffix
    (st.popTo (Container.continued st.containers (.start line)).1)
    (Container.continued st.containers (.start line)).2).trans hcur
  unfold nextBlock
  dsimp only
  split
  · rename_i st' cur h
    rw [h] at hopened
    exact (leafBlock_suffix st' cur).trans hopened
  · rename_i st' s h
    rw [h] at hopened
    exact (Paragraph.after_suffix _ s).trans hopened
  · rename_i st' next h
    rw [h] at hopened
    exact hopened

end Tangle.Markdown
