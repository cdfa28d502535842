import Tangle.Proofs.LastLine

/-!
# What ends a paragraph, with a line feed behind the last line

Whether a line interrupts a paragraph does not depend on how the line ends. The
one test that looks at the line end itself is that for the head of a table: a
head line has to be followed by another line, which the end of the text is not.
But the line behind a line feed at the end of the text is empty, so it is no
delimiter row either.
-/

namespace Tangle.Markdown

/-! ## Tables -/

namespace Table

/-- A row that is read is one of as many columns. -/
def SameRow : Nat × Text → Nat × Text → Prop
  | (columns, rest), (columns', rest') => columns' = columns ∧ Longer rest rest'

theorem finish_longer (row : Row) {r r' : Text} (h : Longer r r') :
    Option.Rel SameRow (readRow.finish row r) (readRow.finish row r') := by
  unfold readRow.finish
  split
  · exact .some ⟨rfl, h⟩
  · exact .none

theorem readRow_concat (row : Row) (s : Text) :
    Option.Rel SameRow (readRow row s) (readRow row (s ++ ['\n'])) := by
  fun_induction readRow row s with
  | case1 row => exact finish_longer row .nil
  | case2 row c s hc =>
      rw [List.cons_append, readRow, if_pos hc]
      exact finish_longer row (.getD (afterLineEnd?_concat (c :: s)) .nil)
  | case3 row s hc ih =>
      rw [List.cons_append, readRow, if_neg hc, if_pos rfl]
      exact ih
  | case4 row s hc hspace ih =>
      rw [List.cons_append, readRow, if_neg hc, if_neg hspace, if_pos rfl]
      exact ih
  | case5 row s hc hspace hcolon ih =>
      rw [List.cons_append, readRow, if_neg hc, if_neg hspace, if_neg hcolon,
        if_pos rfl]
      exact ih
  | case6 row s hin hc hspace hcolon hhyphen ih =>
      rw [List.cons_append, readRow, if_neg hc, if_neg hspace, if_neg hcolon,
        if_neg hhyphen, if_pos rfl, if_pos hin]
      exact ih
  | case7 row s hin hc hspace hcolon hhyphen =>
      rw [List.cons_append, readRow, if_neg hc, if_neg hspace, if_neg hcolon,
        if_neg hhyphen, if_pos rfl, if_neg hin]
      exact .none
  | case8 row c s hc hspace hcolon hhyphen hpipe =>
      rw [List.cons_append, readRow, if_neg hc, if_neg hspace, if_neg hcolon,
        if_neg hhyphen, if_neg hpipe]
      exact .none

theorem delimiterRow?_concat (s : Text) :
    Option.Rel SameRow (delimiterRow? s) (delimiterRow? (s ++ ['\n'])) := by
  unfold delimiterRow?
  dsimp only
  rw [Cursor.start_concat, Cursor.indent_concat]
  split
  · exact .none
  · rcases s with _ | ⟨c, s⟩
    · exact .none
    · by_cases hc : c = '|'
      · rw [hc]
        exact readRow_concat _ s
      · simpa [hc] using readRow_concat _ (c :: s)

theorem columnCount_concat (line : Text) (pipes : Nat) {behind behind' : Text}
    (hbehind : startsBlank behind' = startsBlank behind) :
    columnCount (line ++ ['\n']) pipes behind' = columnCount line pipes behind := by
  unfold columnCount
  simp only [dropWhile_concat (show isInlineSpacing '\n' = false by decide),
    head?_concat (show '|' ≠ '\n' by decide), hbehind]

/-- What two scans of a head line find. The first one may have found no line
end, and then there is no text for a delimiter row behind the other one's. -/
def SameHead (h h' : Option (Nat × Text × Text)) : Prop :=
  (h = none ∧ ∃ pipes behind, h' = some (pipes, behind, [])) ∨
  Option.Rel (fun head head' => head'.1 = head.1 ∧
    startsBlank head'.2.1 = startsBlank head.2.1 ∧ Longer head.2.2 head'.2.2) h h'

theorem SameHead.some {pipes : Nat} {behind behind' next next' : Text}
    (hbehind : startsBlank behind' = startsBlank behind) (h : Longer next next') :
    SameHead (some (pipes, behind, next)) (some (pipes, behind', next')) :=
  Or.inr (.some ⟨rfl, hbehind, h⟩)

theorem headPipes_concat (pipes : Nat) (behind behind' s : Text)
    (hbehind : startsBlank behind' = startsBlank behind) :
    SameHead (headPipes pipes behind s)
      (headPipes pipes behind' (s ++ ['\n'])) := by
  fun_induction headPipes pipes behind s generalizing behind' with
  | case1 pipes behind => exact Or.inl ⟨rfl, pipes, behind', rfl⟩
  | case2 pipes behind s => exact .some hbehind (.concat s)
  | case3 pipes behind s => exact .some hbehind (.concat s)
  | case4 pipes behind s hs =>
      rcases s with _ | ⟨c, s⟩
      · exact .some hbehind .nil
      · have hc : c ≠ '\n' := by
          rintro rfl
          exact hs s rfl
        simpa [headPipes, hc] using SameHead.some hbehind (.concat (c :: s))
  | case5 pipes behind s ih => exact ih _ (startsBlank_concat s)
  | case6 pipes behind c s hc ih =>
      rw [List.cons_append, List.cons_append, headPipes, if_pos hc]
      exact ih behind' hbehind
  | case7 pipes behind c s hc ih =>
      rw [List.cons_append, List.cons_append, headPipes, if_neg hc]
      exact ih behind' hbehind
  | case8 pipes behind c s hfeed _ hreturn hpipe hescape ih =>
      by_cases hlast : c = '\\' ∧ s = []
      · rw [hlast.1, hlast.2]
        exact Or.inl ⟨rfl, pipes, behind', rfl⟩
      · rw [List.cons_append, headPipes]
        · exact ih behind' hbehind
        · exact hfeed
        · exact fun _ hc _ => hreturn hc
        · exact hreturn
        · exact hpipe
        · exact fun _ _ hc _ => ne_backslash hescape hlast hc

theorem interruptingPipes_concat (pipes : Nat) (behind behind' s : Text)
    (hbehind : startsBlank behind' = startsBlank behind) :
    SameHead (interruptingPipes pipes behind s)
      (interruptingPipes pipes behind' (s ++ ['\n'])) := by
  fun_induction interruptingPipes pipes behind s generalizing behind' with
  | case1 pipes behind => exact Or.inl ⟨rfl, pipes, behind', rfl⟩
  | case2 pipes behind s => exact .some hbehind (.concat s)
  | case3 pipes behind s => exact .some hbehind (.concat s)
  | case4 pipes behind s hs =>
      rcases s with _ | ⟨c, s⟩
      · exact .some hbehind .nil
      · have hc : c ≠ '\n' := by
          rintro rfl
          exact hs s rfl
        simpa [interruptingPipes, hc] using SameHead.some hbehind (.concat (c :: s))
  | case5 pipes behind s ih => exact ih behind' hbehind
  | case6 pipes behind s ih => exact ih _ (startsBlank_concat s)
  | case7 pipes behind c s hfeed _ hreturn hescape hpipe ih =>
      rw [List.cons_append, interruptingPipes]
      · exact ih behind' hbehind
      · exact hfeed
      · exact fun _ hc _ => hreturn hc
      · exact hreturn
      · intro t hc ht
        obtain ⟨s', rfl, -⟩ := eq_append_of_concat ['|'] (by decide) ht
        exact hescape s' hc rfl
      · exact hpipe

theorem body?_concat (cs : List Container) (line : Text)
    {h h' : Option (Nat × Text × Text)} (hh : SameHead h h') :
    Option.Rel Longer (body? cs line h) (body? cs (line ++ ['\n']) h') := by
  rcases hh with ⟨rfl, pipes, behind, rfl⟩ | hh
  · -- There is no delimiter row in an empty text.
    have hrow : delimiterRow? [] = none := rfl
    rw [body?, body?, List.suffix_nil.1 (Container.inside_suffix cs []), hrow]
    split <;> exact .none
  · cases hh with
    | none => exact .none
    | @some head head' hh =>
        obtain ⟨pipes, behind, next⟩ := head
        obtain ⟨pipes', behind', next'⟩ := head'
        obtain ⟨rfl, hbehind, hnext⟩ := hh
        rw [body?, body?, hnext.allContinued_eq]
        split
        · exact .none
        · have hrow : Option.Rel SameRow
              (delimiterRow? (Container.inside cs next).rest)
              (delimiterRow? (Container.inside cs next').rest) := by
            rcases hnext.rest_inside cs with h | ⟨h, h'⟩
            · rw [h]
              exact delimiterRow?_concat _
            · rw [h, h']
              exact .none
          generalize delimiterRow? (Container.inside cs next).rest = row at hrow ⊢
          generalize delimiterRow? (Container.inside cs next').rest = row' at hrow ⊢
          cases hrow with
          | none => exact .none
          | @some row row' hrow =>
              obtain ⟨columns, rest⟩ := row
              obtain ⟨columns', rest'⟩ := row'
              obtain ⟨rfl, hrest⟩ := hrow
              dsimp only
              rw [columnCount_concat line _ hbehind]
              split
              · exact .some hrest
              · exact .none

theorem afterHead?_concat (cs : List Container) (line : Text) :
    Option.Rel Longer (afterHead? cs line) (afterHead? cs (line ++ ['\n'])) :=
  body?_concat cs line (headPipes_concat 0 [] [] line rfl)

theorem interrupts_concat (cs : List Container) (line : Text) :
    interrupts cs (line ++ ['\n']) = interrupts cs line := by
  rw [interrupts, interrupts, isSome_eq_of_rel
    (body?_concat cs line (interruptingPipes_concat 0 [] [] line rfl))]
  simp only [head?_concat (show '|' ≠ '\n' by decide)]

end Table

/-! ## What ends a paragraph -/

theorem afterRule?_concat (c : Char) (n : Nat) (s : Text) :
    Option.Rel Longer (afterRule? c n s) (afterRule? c n (s ++ ['\n'])) := by
  fun_induction afterRule? c n s with
  | case1 n h => simpa [afterRule?, h, afterLineEnd?] using Option.Rel.some .nil
  | case2 n h => simp [afterRule?, h]
  | case3 n d s hd h =>
      rw [List.cons_append, afterRule?, if_pos hd, if_pos h]
      exact afterLineEnd?_concat (d :: s)
  | case4 n d s hd h =>
      rw [List.cons_append, afterRule?, if_pos hd, if_neg h]
      exact .none
  | case5 n s hd ih =>
      rw [List.cons_append, afterRule?, if_neg hd, if_pos rfl]
      exact ih
  | case6 n d s hd hmark hblank ih =>
      rw [List.cons_append, afterRule?, if_neg hd, if_neg hmark, if_pos hblank]
      exact ih
  | case7 n d s hd hmark hblank =>
      rw [List.cons_append, afterRule?, if_neg hd, if_neg hmark, if_neg hblank]
      exact .none

theorem afterThematicBreak?_concat (s : Text) :
    Option.Rel Longer (afterThematicBreak? s) (afterThematicBreak? (s ++ ['\n'])) := by
  rcases s with _ | ⟨c, s⟩
  · exact .none
  · rw [List.cons_append, afterThematicBreak?, afterThematicBreak?]
    split
    · exact afterRule?_concat c 0 (c :: s)
    · exact .none

theorem afterHeadingMarks?_concat (s : Text) :
    afterHeadingMarks? (s ++ ['\n']) =
      (afterHeadingMarks? s).map (· ++ ['\n']) := by
  have hspaced (s : Text) :
      (s ++ ['\n']).head?.all isSpacing = s.head?.all isSpacing := by
    cases s <;> rfl
  unfold afterHeadingMarks?
  dsimp only
  rw [drop_runLength_concat (by decide), hspaced, runLength_concat (by decide)]
  split <;> rfl

theorem afterUnderline?_concat (s : Text) :
    Option.Rel Longer (afterUnderline? s) (afterUnderline? (s ++ ['\n'])) := by
  rcases s with _ | ⟨c, s⟩
  · exact .none
  · rw [List.cons_append, afterUnderline?, afterUnderline?, ← List.cons_append]
    split
    · rename_i hc
      rw [drop_runLength_concat]
      · exact afterBlankLine?_concat _
      · rintro rfl
        exact absurd hc (by decide)
    · exact .none

theorem contains_splitLine_concat {c : Char} (hc : c ≠ '\n') (s : Text) :
    (splitLine (s ++ ['\n'])).1.contains c = (splitLine s).1.contains c := by
  rcases splitLine_concat s with ⟨-, h⟩ | ⟨-, h, h'⟩
  · rw [h]
  · rw [h, h']
    simp [hc]

theorem fence?_concat (s : Text) : fence? (s ++ ['\n']) = fence? s := by
  rcases s with _ | ⟨c, s⟩
  · rfl
  by_cases hc : c = '\n'
  · rw [hc]
    rfl
  · rw [List.cons_append, fence?, fence?, ← List.cons_append]
    rw [drop_runLength_concat hc, runLength_concat hc,
      contains_splitLine_concat (by decide)]

theorem takeWhile_take_concat {p : Char → Bool} (hp : p '\n' = false) (n : Nat)
    (s : Text) : ((s ++ ['\n']).take n).takeWhile p = (s.take n).takeWhile p := by
  by_cases hn : n ≤ s.length
  · rw [List.take_append_of_le_length hn]
  · rw [List.take_of_length_le (by simp; omega), takeWhile_concat hp,
      List.take_of_length_le (by omega)]

/-- How many digits there are at most. -/
theorem length_takeWhile_take_le (p : Char → Bool) (n : Nat) (s : Text) :
    ((s.take n).takeWhile p).length ≤ s.length :=
  ((List.takeWhile_sublist p).trans (List.take_sublist n s)).length_le

theorem afterNumber?_concat (s : Text) :
    afterNumber? (s ++ ['\n']) =
      (afterNumber? s).map fun (n, rest) => (n, rest ++ ['\n']) := by
  unfold afterNumber?
  dsimp only
  rw [takeWhile_take_concat (by decide),
    List.drop_append_of_le_length (length_takeWhile_take_le ..)]
  split <;> rfl

theorem listMarker?_concat (s : Text) :
    listMarker? (s ++ ['\n']) =
      (listMarker? s).map fun (eligible, rest) => (eligible, rest ++ ['\n']) := by
  rcases s with _ | ⟨c, s⟩
  · rfl
  rw [List.cons_append, listMarker?, listMarker?]
  split
  · rfl
  · rw [← List.cons_append, afterNumber?_concat]
    cases hnumber : afterNumber? (c :: s) with
    | none => rfl
    | some number =>
        obtain ⟨n, rest⟩ := number
        rcases rest with _ | ⟨d, rest⟩
        · rfl
        · have hn : n ≤ (c :: s).length := by
            unfold afterNumber? at hnumber
            dsimp only at hnumber
            split at hnumber
            · cases hnumber
            · rw [← (Prod.mk.inj (Option.some.inj hnumber)).1]
              exact length_takeWhile_take_le ..
          simp only [Option.map_some, List.cons_append]
          simp only [← List.cons_append, List.take_append_of_le_length hn]
          split <;> rfl

theorem itemInterrupts_concat (anyItem : Bool) (s : Text) :
    itemInterrupts anyItem (s ++ ['\n']) = itemInterrupts anyItem s := by
  unfold itemInterrupts
  rw [listMarker?_concat]
  rcases listMarker? s with _ | ⟨eligible, rest⟩
  · rfl
  · have hspaced : ((rest ++ ['\n']).head?.all fun c =>
        c = ' ' || c = '\t' || c = '\n' || c = '\r') =
        rest.head?.all fun c => c = ' ' || c = '\t' || c = '\n' || c = '\r' := by
      cases rest <;> rfl
    dsimp only [Option.map_some]
    rw [hspaced]
    have hblank := afterBlankLine?_concat rest
    generalize afterBlankLine? rest = next at hblank ⊢
    generalize afterBlankLine? (rest ++ ['\n']) = next' at hblank ⊢
    cases hblank with
    | none => rfl
    | some h =>
        dsimp only
        rw [h.startsBlank_eq]

theorem afterFootnoteLabel?_cons (length : Nat) (written : Bool) (c : Char)
    (s : Text) : afterFootnoteLabel? length written (c :: s) =
      if length ≥ 1000 || c = '[' || c = '\n' || c = '\r' then none
      else if c = ']' then if written then some s else none
      else if c = '\\' then
        s.head?.elim none fun _ => afterFootnoteLabel? (length + 2) true s.tail
      else if isSpacing c then afterFootnoteLabel? (length + 1) written s
      else afterFootnoteLabel? (length + if c.utf8Size = 1 then 0 else c.utf8Size)
        true s := by
  cases s <;> rw [afterFootnoteLabel?] <;> rfl

theorem afterFootnoteLabel?_concat (length : Nat) (written : Bool) (s : Text) :
    afterFootnoteLabel? length written (s ++ ['\n']) =
      (afterFootnoteLabel? length written s).map (· ++ ['\n']) := by
  fun_induction afterFootnoteLabel? length written s with
  | case1 length written => simp [afterFootnoteLabel?]
  | case2 length written c s h =>
      rw [List.cons_append, afterFootnoteLabel?_cons, if_pos h]
      rfl
  | case3 length s h =>
      rw [List.cons_append, afterFootnoteLabel?_cons, if_neg h]
      rfl
  | case4 length written s hwritten h =>
      rw [List.cons_append, afterFootnoteLabel?_cons, if_neg h, if_pos rfl,
        if_neg hwritten]
      rfl
  | case5 length written h hc =>
      rw [List.cons_append, afterFootnoteLabel?_cons, if_neg h, if_neg hc,
        if_pos rfl]
      exact afterFootnoteLabel?.eq_1 (length + 2) true
  | case6 length written c s h hc ih =>
      rw [List.cons_append, afterFootnoteLabel?_cons, if_neg h, if_neg hc,
        if_pos rfl]
      exact ih
  | case7 length written c s h hc hescape hspacing ih =>
      rw [List.cons_append, afterFootnoteLabel?_cons, if_neg h, if_neg hc,
        if_neg hescape, if_pos hspacing]
      exact ih
  | case8 length written c s h hc hescape hspacing ih =>
      rw [List.cons_append, afterFootnoteLabel?_cons, if_neg h, if_neg hc,
        if_neg hescape, if_neg hspacing]
      exact ih

theorem afterFootnoteMark?_concat (s : Text) :
    afterFootnoteMark? (s ++ ['\n']) = (afterFootnoteMark? s).map (· ++ ['\n']) := by
  unfold afterFootnoteMark?
  split
  · rename_i t h
    obtain ⟨s', rfl, rfl⟩ := eq_append_of_concat ['[', '^'] (by decide) h
    simp only [List.cons_append, List.nil_append]
    rw [afterFootnoteLabel?_concat]
    rcases afterFootnoteLabel? 0 false s' with _ | _ | ⟨c, r⟩
    · rfl
    · rfl
    · by_cases hc : c = ':' <;> simp [hc]
  · rename_i hmark
    split
    · exact (hmark _ rfl).elim
    · rfl

theorem blockInterrupts_concat (anyItem : Bool) (s : Text) :
    blockInterrupts anyItem (s ++ ['\n']) = blockInterrupts anyItem s := by
  unfold blockInterrupts
  rw [isSome_eq_of_rel (afterLineEnd?_concat s),
    isSome_eq_of_rel (afterThematicBreak?_concat s), afterHeadingMarks?_concat,
    fence?_concat, itemInterrupts_concat, Html.interrupts_concat,
    afterFootnoteMark?_concat, Option.isSome_map, Option.isSome_map]
  simp only [head?_concat (show '>' ≠ '\n' by decide)]

theorem interruptsParagraph_concat (cs : List Container) (inner : Bool) (s : Text) :
    interruptsParagraph cs inner (s ++ ['\n']) = interruptsParagraph cs inner s := by
  rw [interruptsParagraph, interruptsParagraph, blockInterrupts_concat,
    Table.interrupts_concat]

end Tangle.Markdown
