import Tangle.Proofs.LastInterrupt

/-!
# Where a paragraph ends, with a line feed behind the last line

A paragraph may run to the end of the text. The line feed behind its last line
then belongs to it, and behind that stands one more line, which is empty. Both
the loop over the lines of a paragraph and the one over link definitions stop at
an empty line and leave nothing, so each is cut in two here: what happens up to
a line end, and what happens from the next line on (`Paragraph.afterNext`,
`afterDefinition`).
-/

namespace Tangle.Markdown

/-! ## Link definitions -/

namespace LinkDefinition

theorem continuation?_concat (cs : List Container) (line : Text) :
    continuation? cs (line ++ ['\n']) =
      (continuation? cs line).map (· ++ ['\n']) := by
  have hunderline (s : Text) := isSome_eq_of_rel (afterUnderline?_concat s)
  simp only [continuation?, Container.ahead_concat, Container.allContinued_concat,
    Cursor.rest_concat, interruptsParagraph_concat, hunderline]
  split
  · rfl
  · split <;> rfl

theorem nextLine?_concat (cs : List Container) (s : Text) :
    Option.Rel Longer (nextLine? cs s) (nextLine? cs (s ++ ['\n'])) := by
  unfold nextLine?
  have hline := afterLineEnd?_concat s
  generalize afterLineEnd? s = line at hline ⊢
  generalize afterLineEnd? (s ++ ['\n']) = line' at hline ⊢
  cases hline with
  | none => exact .none
  | @some line line' h =>
      rcases h with rfl | ⟨rfl, rfl⟩
      · dsimp only
        rw [continuation?_concat]
        cases continuation? cs line with
        | none => exact .none
        | some r => exact .some (.concat r)
      · dsimp only
        cases hr : continuation? cs [] with
        | none => exact .none
        | some r =>
            rw [List.suffix_nil.1 (continuation?_suffix hr)]
            exact .some .nil

theorem nextLine?_concat_of_none {cs : List Container} {s : Text}
    (h : nextLine? cs s = none) : nextLine? cs (s ++ ['\n']) = none := by
  have hnext := nextLine?_concat cs s
  rw [h] at hnext
  generalize nextLine? cs (s ++ ['\n']) = next at hnext
  cases hnext
  rfl

theorem nextLine?_concat_of_some {cs : List Container} {s r : Text}
    (h : nextLine? cs s = some r) :
    ∃ r', nextLine? cs (s ++ ['\n']) = some r' ∧ Longer r r' := by
  have hnext := nextLine?_concat cs s
  rw [h] at hnext
  generalize nextLine? cs (s ++ ['\n']) = next at hnext
  cases hnext with
  | some h => exact ⟨_, rfl, h⟩

theorem eq_nil_of_nextLine?_lineFeed {cs : List Container} {r : Text}
    (h : nextLine? cs ['\n'] = some r) : r = [] :=
  List.eq_nil_of_length_eq_zero (Nat.le_zero.1 (nextLine?_length_le h))

theorem afterLabel?_nil (cs : List Container) (length : Nat)
    (written broken : Bool) : afterLabel? cs length written broken [] = none := by
  rw [afterLabel?]

theorem afterLabel?_concat (cs : List Container) (length : Nat)
    (written broken : Bool) (s : Text) :
    afterLabel? cs length written broken (s ++ ['\n']) =
      (afterLabel? cs length written broken s).map (· ++ ['\n']) := by
  fun_induction afterLabel? cs length written broken s with
  | case1 length written broken =>
      rw [List.nil_append, afterLabel?]
      split
      · rfl
      · rw [if_neg (by decide), if_neg (by decide), if_pos (by decide)]
        split
        · rfl
        · split
          · rfl
          · rename_i r hr
            rw [eq_nil_of_nextLine?_lineFeed hr]
            exact afterLabel?_nil ..
  | case2 length written broken c t h =>
      rw [List.cons_append, afterLabel?, if_pos h]
      rfl
  | case3 length broken t h =>
      rw [List.cons_append, afterLabel?, if_neg h, if_pos rfl]
      rfl
  | case4 length written broken t hwritten h =>
      rw [List.cons_append, afterLabel?, if_neg h, if_pos rfl, if_neg hwritten]
      rfl
  | case5 length written broken t h hc ih =>
      rw [List.cons_append, afterLabel?, if_neg h, if_neg hc, if_pos rfl]
      rcases t with _ | ⟨d, t⟩
      · rw [List.drop_nil, afterLabel?_nil]
        exact afterLabel?_nil ..
      · exact ih
  | case6 length written c t h hc hescape hend =>
      rw [List.cons_append, afterLabel?, if_neg h, if_neg hc, if_neg hescape,
        if_pos hend]
      rfl
  | case7 length written broken c t h hc hescape hend hbroken hn =>
      rw [List.cons_append, afterLabel?, if_neg h, if_neg hc, if_neg hescape,
        if_pos hend, if_neg hbroken]
      split
      · rfl
      · rename_i hr
        cases (nextLine?_concat_of_none hn).symm.trans hr
  | case8 length written broken c t h hc hescape hend hbroken r hn ih =>
      rw [List.cons_append, afterLabel?, if_neg h, if_neg hc, if_neg hescape,
        if_pos hend, if_neg hbroken]
      obtain ⟨r', hnext, hlonger⟩ := nextLine?_concat_of_some hn
      split
      · rename_i hr
        cases hnext.symm.trans hr
      · rename_i hr
        cases hnext.symm.trans hr
        rcases hlonger with rfl | ⟨rfl, rfl⟩
        · have hlength : (t ++ ['\n']).length + 1 - (r ++ ['\n']).length =
              t.length + 1 - r.length := by simp
          rw [hlength]
          exact ih
        · rw [afterLabel?_nil, afterLabel?_nil]
          rfl
  | case9 length written broken c t h hc hescape hend hspacing ih =>
      rw [List.cons_append, afterLabel?, if_neg h, if_neg hc, if_neg hescape,
        if_neg hend, if_pos hspacing]
      exact ih
  | case10 length written broken c t h hc hescape hend hspacing ih =>
      rw [List.cons_append, afterLabel?, if_neg h, if_neg hc, if_neg hescape,
        if_neg hend, if_neg hspacing]
      exact ih

theorem afterGap?_concat (cs : List Container) (s : Text) :
    afterGap? cs (s ++ ['\n']) =
      (afterGap? cs s).map fun (r, broken) => (r ++ ['\n'], broken) := by
  unfold afterGap?
  dsimp only
  rw [dropWhile_concat (by decide)]
  generalize s.dropWhile isInlineSpacing = s
  have hnone : (afterLineEnd? (s ++ ['\n'])).isNone = (afterLineEnd? s).isNone := by
    rw [← Option.not_isSome, ← Option.not_isSome,
      isSome_eq_of_rel (afterLineEnd?_concat s)]
  rw [hnone]
  split
  · rfl
  · have hnext := nextLine?_concat cs s
    generalize nextLine? cs s = r at hnext ⊢
    generalize nextLine? cs (s ++ ['\n']) = r' at hnext ⊢
    cases hnext with
    | none => rfl
    | some h =>
        rcases h with rfl | ⟨rfl, rfl⟩
        · dsimp only
          rw [dropWhile_concat (by decide), isSome_eq_of_rel (afterLineEnd?_concat _)]
          split <;> rfl
        · rfl

theorem afterGap?_nil (cs : List Container) : afterGap? cs [] = none := by
  rw [afterGap?, List.dropWhile_nil, if_neg (by decide)]
  cases hr : nextLine? cs [] with
  | none => rfl
  | some r =>
      rw [List.suffix_nil.1 (nextLine?_suffix hr)]
      rfl

theorem afterAngled?_concat (s : Text) :
    afterAngled? (s ++ ['\n']) = (afterAngled? s).map (· ++ ['\n']) := by
  fun_induction afterAngled? s with
  | case1 => rfl
  | case2 s => rfl
  | case3 c s hc ih =>
      rw [List.cons_append, List.cons_append, afterAngled?, if_pos hc]
      exact ih
  | case4 c s hc ih =>
      rw [List.cons_append, List.cons_append, afterAngled?, if_neg hc]
      exact ih
  | case5 c s hangle hescape hc =>
      have hback : c ≠ '\\' := by
        rintro rfl
        exact absurd hc (by decide)
      rw [List.cons_append, afterAngled?, if_pos hc]
      · rfl
      · exact hangle
      · exact fun _ _ h _ => hback h
  | case6 c s hangle hescape hc ih =>
      by_cases hlast : c = '\\' ∧ s = []
      · rw [hlast.1, hlast.2]
        rfl
      · rw [List.cons_append, afterAngled?, if_neg hc]
        · exact ih
        · exact hangle
        · exact fun _ _ h _ => ne_backslash hescape hlast h

theorem afterBare?_concat (depth : Nat) (s : Text) :
    afterBare? depth (s ++ ['\n']) = (afterBare? depth s).map (· ++ ['\n']) := by
  -- The line feed ends a destination as the end of the text does.
  have hnil (depth : Nat) : afterBare? depth ['\n'] =
      (afterBare? depth []).map (· ++ ['\n']) := by
    by_cases hdepth : depth = 0 <;> simp [afterBare?, hdepth]
  have hplain {c : Char} (hc : c ≠ '\\') (depth : Nat) (s : Text) :
      afterBare? depth (c :: s) =
        if c ≤ ' ' then if depth = 0 then some (c :: s) else none
        else if c = '(' then if depth > 32 then none else afterBare? (depth + 1) s
        else if c = ')' then
          if depth = 0 then some (c :: s) else afterBare? (depth - 1) s
        else afterBare? depth s := by
    rw [afterBare?]
    exact fun _ _ h _ => hc h
  fun_induction afterBare? depth s with
  | case1 => exact hnil 0
  | case2 depth hdepth => simp [afterBare?, hdepth]
  | case3 depth c s hc ih =>
      rw [List.cons_append, List.cons_append, afterBare?, if_pos hc]
      exact ih
  | case4 depth c s hc ih =>
      rw [List.cons_append, List.cons_append, afterBare?, if_neg hc]
      exact ih
  | case5 c s hescape hc =>
      have hback : c ≠ '\\' := by
        rintro rfl
        exact absurd hc (by decide)
      rw [List.cons_append, hplain hback, if_pos hc]
      rfl
  | case6 depth c s hescape hc hdepth =>
      have hback : c ≠ '\\' := by
        rintro rfl
        exact absurd hc (by decide)
      rw [List.cons_append, hplain hback, if_pos hc, if_neg hdepth]
      rfl
  | case7 depth s hdepth _ hc =>
      rw [List.cons_append, hplain (by decide), if_neg hc, if_pos rfl, if_pos hdepth]
      rfl
  | case8 depth s hdepth _ hc ih =>
      rw [List.cons_append, hplain (by decide), if_neg hc, if_pos rfl, if_neg hdepth]
      exact ih
  | case9 s _ hc hopen =>
      rw [List.cons_append, hplain (by decide), if_neg hc, if_neg hopen, if_pos rfl]
      rfl
  | case10 depth s hdepth _ hc hopen ih =>
      rw [List.cons_append, hplain (by decide), if_neg hc, if_neg hopen, if_pos rfl,
        if_neg hdepth]
      exact ih
  | case11 depth c s hescape hc hopen hclose ih =>
      by_cases hlast : c = '\\' ∧ s = []
      · rw [hlast.1, hlast.2]
        exact hnil depth
      · rw [List.cons_append, hplain (ne_backslash hescape hlast), if_neg hc,
          if_neg hopen, if_neg hclose]
        exact ih

theorem afterDestination?_concat (s : Text) :
    afterDestination? (s ++ ['\n']) = (afterDestination? s).map (· ++ ['\n']) := by
  rcases s with _ | ⟨c, s⟩
  · rfl
  by_cases hc : c = '<'
  · rw [hc]
    exact afterAngled?_concat s
  · rw [List.cons_append, afterDestination?, afterDestination?, ← List.cons_append]
    · split
      · rfl
      · exact afterBare?_concat 0 (c :: s)
    · exact hc
    · exact hc

theorem dropEscaped_concat (s : Text) :
    dropEscaped (s ++ ['\n']) = dropEscaped s ++ ['\n'] := by
  rcases s with _ | ⟨c, s⟩
  · rfl
  · rw [List.cons_append, dropEscaped, dropEscaped]
    split <;> rfl

theorem afterTitle?_nil (cs : List Container) (close : Char) :
    afterTitle? cs close [] = none := by
  rw [afterTitle?]

theorem afterTitle?_concat (cs : List Container) {close : Char}
    (hclose : close ≠ '\n') (s : Text) :
    afterTitle? cs close (s ++ ['\n']) =
      (afterTitle? cs close s).map (· ++ ['\n']) := by
  fun_induction afterTitle? cs close s with
  | case1 =>
      rw [List.nil_append, afterTitle?, if_neg hclose.symm, if_neg (by simp),
        if_neg (by decide), if_pos (by decide)]
      split
      · rfl
      · rename_i r hr
        rw [eq_nil_of_nextLine?_lineFeed hr]
        exact afterTitle?_nil cs close
  | case2 t =>
      rw [List.cons_append, afterTitle?, if_pos rfl]
      rfl
  | case3 c t hclosed hparen =>
      rw [List.cons_append, afterTitle?, if_neg hclosed, if_pos hparen]
      rfl
  | case4 t hclosed hparen ih =>
      rw [List.cons_append, afterTitle?, if_neg hclosed, if_neg hparen, if_pos rfl,
        dropEscaped_concat]
      exact ih
  | case5 c t hclosed hparen hescape hend hn =>
      rw [List.cons_append, afterTitle?, if_neg hclosed, if_neg hparen,
        if_neg hescape, if_pos hend]
      split
      · rfl
      · rename_i hr
        cases (nextLine?_concat_of_none hn).symm.trans hr
  | case6 c t hclosed hparen hescape hend r hn ih =>
      rw [List.cons_append, afterTitle?, if_neg hclosed, if_neg hparen,
        if_neg hescape, if_pos hend]
      obtain ⟨r', hnext, hlonger⟩ := nextLine?_concat_of_some hn
      split
      · rename_i hr
        cases hnext.symm.trans hr
      · rename_i hr
        cases hnext.symm.trans hr
        rcases hlonger with rfl | ⟨rfl, rfl⟩
        · exact ih
        · rw [afterTitle?_nil]
          rfl
  | case7 c t hclosed hparen hescape hend ih =>
      rw [List.cons_append, afterTitle?, if_neg hclosed, if_neg hparen,
        if_neg hescape, if_neg hend]
      exact ih

theorem afterOpenedTitle?_concat (cs : List Container) (s : Text) :
    afterOpenedTitle? cs (s ++ ['\n']) =
      (afterOpenedTitle? cs s).map (· ++ ['\n']) := by
  rcases s with _ | ⟨c, s⟩
  · rfl
  by_cases hdouble : c = '"'
  · rw [hdouble]
    exact afterTitle?_concat cs (by decide) s
  by_cases hsingle : c = '\''
  · rw [hsingle]
    exact afterTitle?_concat cs (by decide) s
  by_cases hparen : c = '('
  · rw [hparen]
    exact afterTitle?_concat cs (by decide) s
  · simp [afterOpenedTitle?, hdouble, hsingle, hparen]

theorem afterColon?_concat (cs : List Container) (s : Text) :
    afterColon? cs (s ++ ['\n']) = (afterColon? cs s).map (· ++ ['\n']) := by
  unfold afterColon?
  rw [afterGap?_concat]
  rcases afterGap? cs s with _ | ⟨s, broken⟩
  · rfl
  dsimp only [Option.map_some]
  rw [afterDestination?_concat]
  rcases afterDestination? s with _ | bare
  · rfl
  dsimp only [Option.map_some]
  rw [afterGap?_concat]
  cases hgap : afterGap? cs bare with
  | none => rfl
  | some gap =>
      obtain ⟨s, broken⟩ := gap
      dsimp only [Option.map_some]
      have hspaced : ((bare ++ ['\n']).head?.all fun c => !isSpacing c) =
          bare.head?.all fun c => !isSpacing c := by
        rcases bare with _ | ⟨c, bare⟩
        · rw [afterGap?_nil] at hgap
          cases hgap
        · rfl
      have huntitled : (if broken then some (bare ++ ['\n']) else none) =
          (if broken then some bare else none).map (· ++ ['\n']) := by
        cases broken <;> rfl
      rw [hspaced, huntitled, afterOpenedTitle?_concat]
      split
      · rfl
      · cases afterOpenedTitle? cs s with
        | none => rfl
        | some rest =>
            dsimp only [Option.map_some]
            rw [startsBlank_concat]
            split <;> rfl

theorem after?_concat (cs : List Container) (s : Text) :
    after? cs (s ++ ['\n']) = (after? cs s).map (· ++ ['\n']) := by
  rcases s with _ | ⟨c, s⟩
  · rfl
  by_cases hc : c = '['
  · rw [hc]
    simp only [List.cons_append, after?]
    rw [afterLabel?_concat]
    rcases afterLabel? cs 0 false false s with _ | _ | ⟨d, r⟩
    · rfl
    · rfl
    · by_cases hd : d = ':'
      · rw [hd]
        exact afterColon?_concat cs r
      · simp [hd]
  · simp [after?, hc]

end LinkDefinition

/-! ## Paragraphs -/

theorem Container.text_suffix (cs : List Container) (line : Text) :
    ((inside cs line).skip 4).2.skipAll.rest <:+ line :=
  (Cursor.skipAll_suffix _).trans (ahead_suffix cs line 4)

namespace Paragraph

theorem afterRows_nil (cs : List Container) : afterRows cs [] = [] :=
  List.suffix_nil.1 (afterRows_suffix cs [])

theorem afterLines_nil (cs : List Container) : afterLines cs [] = [] :=
  List.suffix_nil.1 (afterLines_suffix cs [])

theorem afterRows_concat (cs : List Container) (line : Text) :
    Longer (afterRows cs line) (afterRows cs (line ++ ['\n'])) := by
  have hrow (line : Text) : (Container.inside cs (line ++ ['\n'])).skipAll.rest =
      (Container.inside cs line).skipAll.rest ++ ['\n'] := by
    rw [Container.inside_concat, Cursor.skipAll_concat]
    rfl
  fun_induction afterRows cs line with
  | case1 =>
      -- The line feed alone is a blank line, which is no row.
      have hempty : (Container.inside cs []).skipAll.rest = [] :=
        List.suffix_nil.1 ((Cursor.skipAll_suffix _).trans
          (Container.inside_suffix cs []))
      have hblank := hrow []
      rw [hempty, List.nil_append] at hblank
      rw [List.nil_append, afterRows, hblank]
      have hinterrupts : blockInterrupts true ['\n'] = true := by decide
      rw [hinterrupts, Bool.or_true, if_pos rfl]
      exact .concat []
  | case2 c t row h =>
      rw [List.cons_append, afterRows, ← List.cons_append,
        Container.allContinued_concat, hrow, blockInterrupts_concat, if_pos h]
      exact .concat (c :: t)
  | case3 c t row h ih =>
      rw [List.cons_append, afterRows, ← List.cons_append,
        Container.allContinued_concat, hrow, blockInterrupts_concat, if_neg h]
      rcases dropProseLine_concat row with hnext | ⟨hnext, hnext'⟩
      · rw [hnext]
        exact ih
      · rw [hnext, hnext', afterRows_nil]
        exact .nil

/-- What follows the lines of a paragraph from one of its line ends on. -/
def afterNext (cs : List Container) (next : Text) : Text :=
  let inner := Container.allContinued cs next
  let ahead := (Container.inside cs next).skip 4
  if ahead.1 ≠ 0 && inner && (afterUnderline? ahead.2.rest).isSome then
    (afterUnderline? ahead.2.rest).getD []
  else if ahead.1 ≠ 0 && interruptsParagraph cs inner ahead.2.rest then next
  else if ahead.2.skipAll.atLineEnd then next
  else afterLines cs ahead.2.skipAll.rest

theorem afterLines_cons (cs : List Container) (c : Char) (t : Text) :
    afterLines cs (c :: t) = afterNext cs (dropProseLine (c :: t)) := by
  rw [afterLines]
  rfl

theorem afterNext_nil (cs : List Container) : afterNext cs [] = [] := by
  have hahead : ((Container.inside cs []).skip 4).2.rest = [] :=
    List.suffix_nil.1 (Container.ahead_suffix cs [] 4)
  unfold afterNext
  dsimp only
  rw [hahead, List.suffix_nil.1 (Container.text_suffix cs []), afterLines_nil]
  simp [afterUnderline?]

theorem afterNext_concat (cs : List Container) (next : Text)
    (ih : ∀ s : Text, s.length ≤ next.length →
      Longer (afterLines cs s) (afterLines cs (s ++ ['\n']))) :
    Longer (afterNext cs next) (afterNext cs (next ++ ['\n'])) := by
  have hunderline (s : Text) := isSome_eq_of_rel (afterUnderline?_concat s)
  simp only [afterNext, Container.allContinued_concat, Container.ahead_concat,
    Cursor.rest_concat, hunderline, interruptsParagraph_concat, Cursor.skipAll_concat,
    Cursor.atLineEnd_concat]
  split
  · exact .getD (afterUnderline?_concat _) .nil
  · split
    · exact .concat next
    · split
      · exact .concat next
      · exact ih _ (Container.text_suffix cs next).length_le

theorem afterLines_concat (cs : List Container) : ∀ s : Text,
    Longer (afterLines cs s) (afterLines cs (s ++ ['\n']))
  | [] => by
      have hline : dropProseLine ['\n'] = [] := rfl
      rw [List.nil_append, afterLines_cons, hline, afterNext_nil, afterLines_nil]
      exact .nil
  | c :: t => by
      have hlength := dropProseLine_length_le (c :: t)
      rw [List.cons_append, afterLines_cons, afterLines_cons, ← List.cons_append]
      rcases dropProseLine_concat (c :: t) with hnext | ⟨hnext, hnext'⟩
      · rw [hnext]
        exact afterNext_concat cs _ fun s hs => afterLines_concat cs s
      · rw [hnext, hnext', afterNext_nil]
        exact .nil
termination_by s => s.length
decreasing_by
  rw [List.length_cons] at hlength ⊢
  omega

theorem after_concat (cs : List Container) (s : Text) :
    Longer (after cs s) (after cs (s ++ ['\n'])) := by
  unfold after
  have hhead := Table.afterHead?_concat cs s
  generalize Table.afterHead? cs s = body at hhead ⊢
  generalize Table.afterHead? cs (s ++ ['\n']) = body' at hhead ⊢
  cases hhead with
  | none => exact afterLines_concat cs s
  | some h =>
      rcases h with rfl | ⟨rfl, rfl⟩
      · exact afterRows_concat cs _
      · dsimp only
        rw [afterRows_nil]
        exact .nil

end Paragraph

theorem afterDefinitions_nil (cs : List Container) : afterDefinitions cs [] = [] :=
  List.suffix_nil.1 (afterDefinitions_suffix cs [])

/-- What follows the text behind a link definition. -/
def afterDefinition (cs : List Container) (next : Text) : Text :=
  let ahead := (Container.inside cs next).skip 4
  if ahead.1 ≠ 0 &&
      interruptsParagraph cs (Container.allContinued cs next) ahead.2.rest then next
  else afterDefinitions cs ahead.2.skipAll.rest

theorem afterDefinitions_eq (cs : List Container) (s : Text) :
    afterDefinitions cs s =
      match LinkDefinition.after? cs s with
      | none => Paragraph.after cs s
      | some rest => afterDefinition cs ((afterBlankLine? rest).getD rest) := by
  rw [afterDefinitions]
  split
  · rename_i h
    rw [h]
  · rename_i rest h
    rw [h]
    rfl

theorem afterDefinition_nil (cs : List Container) : afterDefinition cs [] = [] := by
  unfold afterDefinition
  dsimp only
  rw [List.suffix_nil.1 (Container.text_suffix cs []), afterDefinitions_nil]
  exact ite_self _

theorem afterDefinitions_concat (cs : List Container) (s : Text) :
    Longer (afterDefinitions cs s) (afterDefinitions cs (s ++ ['\n'])) := by
  rw [afterDefinitions_eq, afterDefinitions_eq, LinkDefinition.after?_concat]
  cases h : LinkDefinition.after? cs s with
  | none => exact Paragraph.after_concat cs s
  | some rest =>
      dsimp only [Option.map_some]
      have hlength := LinkDefinition.after?_length_lt h
      have hnext := Longer.getD (afterBlankLine?_concat rest) (.concat rest)
      have hle := afterBlankLine?_getD_length_le rest
      generalize (afterBlankLine? rest).getD rest = next at hnext hle ⊢
      generalize (afterBlankLine? (rest ++ ['\n'])).getD (rest ++ ['\n']) = next' at hnext ⊢
      rcases hnext with rfl | ⟨rfl, rfl⟩
      · have hshort := (Container.text_suffix cs next).length_le
        simp only [afterDefinition, Container.allContinued_concat,
          Container.ahead_concat, Cursor.rest_concat, interruptsParagraph_concat,
          Cursor.skipAll_concat]
        split
        · exact .concat next
        · exact afterDefinitions_concat cs _
      · rw [afterDefinition_nil]
        exact .nil
termination_by s.length
decreasing_by omega

end Tangle.Markdown
