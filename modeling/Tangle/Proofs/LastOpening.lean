import Tangle.Proofs.LastParagraph

/-!
# The containers that a line opens, with a line feed behind the last line

A line feed opens nothing and closes nothing, so the last line of a text opens
the same containers with it and without it. The parser looks for them one after
the other; `inItem` and `inQuote` are what it does behind the mark of one, so
that the recursion is over the marks of the line alone.
-/

namespace Tangle.Markdown

namespace Opened

theorem content_concat (indent : Nat) (marker : Char) (width : Nat) (cur : Cursor) :
    listItem?.content indent marker width cur.concat =
      (listItem?.content indent marker width cur).map
        fun (marker, width, inner) => (marker, width, inner.concat) := by
  simp only [listItem?.content, Cursor.skip_concat, Cursor.atLineEnd_concat,
    Cursor.indent_concat, Cursor.rest_concat, startsBlank_concat]
  split
  · split
    · rfl
    · split <;> rfl
  · rfl

theorem listItem?_concat (indent : Nat) (cur : Cursor) :
    listItem? indent cur.concat =
      (listItem? indent cur).map
        fun (marker, width, inner) => (marker, width, inner.concat) := by
  unfold listItem?
  rw [Cursor.rest_concat]
  rcases cur.rest with _ | ⟨c, s⟩
  · rfl
  dsimp only [List.cons_append]
  split
  · rw [← List.cons_append, isSome_eq_of_rel (afterThematicBreak?_concat _)]
    split
    · rfl
    · exact content_concat indent c 1 ⟨s, cur.column + 1, cur.owed⟩
  · rw [← List.cons_append, afterNumber?_concat]
    rcases afterNumber? (c :: s) with _ | ⟨n, _ | ⟨d, t⟩⟩
    · rfl
    · rfl
    · dsimp only [Option.map_some, List.cons_append]
      split
      · exact content_concat indent d (n + 1) ⟨t, cur.column + n + 1, cur.owed⟩
      · rfl

theorem afterTask?_concat (cur : Cursor) :
    afterTask? cur.concat = (afterTask? cur).map (· ++ ['\n']) := by
  unfold afterTask?
  rw [Cursor.skip_concat]
  dsimp only [Cursor.rest_concat]
  rcases (cur.skip 3).2.rest with _ | ⟨a, _ | ⟨b, _ | ⟨c, _ | ⟨d, s⟩⟩⟩⟩
  · rfl
  · by_cases ha : a = '[' <;> simp [ha]
  · by_cases ha : a = '[' <;> simp [ha]
  · -- The line feed is no blank behind the marker.
    have hfeed : isInlineSpacing '\n' = false := by decide
    by_cases ha : a = '[' <;> by_cases hc : c = ']' <;> simp [ha, hc, hfeed]
  · by_cases ha : a = '[' <;> by_cases hc : c = ']' <;> simp [ha, hc]

theorem afterAlert?_concat (s : Text) :
    Option.Rel Longer (afterAlert? s) (afterAlert? (s ++ ['\n'])) := by
  have hdrop : ∀ tag ∈ alerts,
      dropPrefixIgnoringCase? tag.toList (s ++ ['\n']) =
        (dropPrefixIgnoringCase? tag.toList s).map (· ++ ['\n']) := by
    have htag : ∀ tag ∈ alerts, '\n' ∉ tag.toList := by decide
    exact fun tag hmem => dropPrefixIgnoringCase?_concat (htag tag hmem) s
  unfold afterAlert?
  generalize alerts = tags at hdrop
  induction tags with
  | nil => exact .none
  | cons tag tags ih =>
      have hrest := ih fun t ht => hdrop t (List.mem_cons_of_mem tag ht)
      rw [List.findSome?_cons, List.findSome?_cons, hdrop tag (List.mem_cons_self ..)]
      cases dropPrefixIgnoringCase? tag.toList s with
      | none => exact hrest
      | some rest =>
          dsimp only [Option.map_some]
          have hblank := afterBlankLine?_concat rest
          generalize afterBlankLine? rest = next at hblank ⊢
          generalize afterBlankLine? (rest ++ ['\n']) = next' at hblank ⊢
          cases hblank with
          | none => exact hrest
          | some h => exact .some h

/-- What a line holds behind the marker of the list item it opens. -/
def inItem (st : State) (inner : Cursor) : Opened :=
  match afterBlankLine? inner.rest with
  | some next => .nothing { st with emptyItem := true } next
  | none =>
    match afterTask? inner with
    | some s =>
      match afterBlankLine? s with
      | some next => .nothing { st with emptyItem := true } next
      | none => .prose st s
    | none => ofLine st inner

/-- What a line holds behind the mark of the block quote it opens. -/
def inQuote (st : State) (inner : Cursor) : Opened :=
  match afterAlert? (inner.skip 1).2.rest with
  | some next =>
    let (missing, line) := (Container.inside st.containers next).skip 4
    if missing ≠ 0 && interruptsParagraph st.containers
        (Container.allContinued st.containers next) line.rest then
      .nothing st next
    else .leaf st line.skipAll
  | none => ofLine st (inner.skip 1).2

theorem ofLine_eq (st : State) (cur : Cursor) :
    ofLine st cur =
      if (cur.indent 4).1 = 4 then .leaf st cur
      else
        match afterFootnoteMark? (cur.indent 4).2.rest with
        | some s => ofLine (pushFootnote st) (.start (s.dropWhile isInlineSpacing))
        | none =>
          match listItem? (cur.indent 4).1 (cur.indent 4).2 with
          | some (marker, width, inner) =>
            inItem ((st.continueList marker).push (.item width)) inner
          | none =>
            match (cur.indent 4).2.char? '>' with
            | some inner => inQuote (st.finishList.push .quote) inner
            | none => .leaf st cur := by
  rw [ofLine]
  dsimp only
  split
  · rfl
  · split
    · rename_i h
      rw [h]
    · rename_i h
      rw [h]
      dsimp only
      split
      · rename_i h
        rw [h]
        rfl
      · rename_i h
        rw [h]
        dsimp only
        split
        · rename_i h
          rw [h]
          rfl
        · rename_i h
          rw [h]

/-- Two lines that open the same containers, where a line feed stands behind the
text that the second one leaves. -/
inductive Same : Opened → Opened → Prop where
  | leaf (st : State) (cur : Cursor) : Same (.leaf st cur) (.leaf st cur.concat)
  /-- A line end has been passed, and nothing is left of either text. -/
  | empty (st : State) {cur : Cursor} (h : cur.rest = []) :
    Same (.leaf st cur) (.leaf st cur)
  | prose (st : State) (s : Text) : Same (.prose st s) (.prose st (s ++ ['\n']))
  | nothing (st : State) {next next' : Text} (h : Longer next next') :
    Same (.nothing st next) (.nothing st next')

/-- A line with nothing behind what was opened, or `other`. -/
theorem Same.blankLine (st : State) (s : Text) {other other' : Opened}
    (h : Same other other') :
    Same (match afterBlankLine? s with
        | some next => .nothing st next
        | none => other)
      (match afterBlankLine? (s ++ ['\n']) with
        | some next => .nothing st next
        | none => other') := by
  have hblank := afterBlankLine?_concat s
  generalize afterBlankLine? s = next at hblank ⊢
  generalize afterBlankLine? (s ++ ['\n']) = next' at hblank ⊢
  cases hblank with
  | none => exact h
  | some hnext => exact .nothing st hnext

theorem inItem_concat (st : State) (inner : Cursor)
    (ih : Same (ofLine st inner) (ofLine st inner.concat)) :
    Same (inItem st inner) (inItem st inner.concat) := by
  unfold inItem
  refine .blankLine _ _ ?_
  rw [afterTask?_concat]
  cases afterTask? inner with
  | none => exact ih
  | some s => exact .blankLine _ s (.prose st s)

theorem inQuote_concat (st : State) (inner : Cursor)
    (ih : Same (ofLine st (inner.skip 1).2) (ofLine st (inner.skip 1).2.concat)) :
    Same (inQuote st inner) (inQuote st inner.concat) := by
  unfold inQuote
  rw [Cursor.skip_concat]
  dsimp only [Cursor.rest_concat]
  have halert := afterAlert?_concat (inner.skip 1).2.rest
  generalize afterAlert? (inner.skip 1).2.rest = next at halert ⊢
  generalize afterAlert? ((inner.skip 1).2.rest ++ ['\n']) = next' at halert ⊢
  cases halert with
  | none => exact ih
  | @some next next' hnext =>
      dsimp only
      rcases hnext with rfl | ⟨rfl, rfl⟩
      · simp only [Container.ahead_concat, Container.allContinued_concat,
          Cursor.rest_concat, interruptsParagraph_concat, Cursor.skipAll_concat]
        split
        · exact .nothing st (.concat next)
        · exact .leaf st _
      · split
        · exact .nothing st .nil
        · exact .empty st (List.suffix_nil.1 (Container.text_suffix _ []))

theorem ofLine_concat (st : State) (cur : Cursor) :
    Same (ofLine st cur) (ofLine st cur.concat) := by
  have hle : (cur.indent 4).2.rest.length ≤ cur.rest.length :=
    Cursor.skip_length_le 4 cur
  rw [ofLine_eq, ofLine_eq st cur.concat, Cursor.indent_concat]
  dsimp only [Cursor.rest_concat]
  rw [afterFootnoteMark?_concat, listItem?_concat, Cursor.char?_concat (by decide)]
  split
  · exact .leaf st cur
  · cases hf : afterFootnoteMark? (cur.indent 4).2.rest with
    | some s =>
        have hshorter : (Cursor.start (s.dropWhile isInlineSpacing)).rest.length <
            cur.rest.length :=
          Nat.lt_of_le_of_lt (dropWhile_length_le isInlineSpacing s)
            (Nat.lt_of_lt_of_le (afterFootnoteMark?_length_lt hf) hle)
        dsimp only [Option.map_some]
        rw [dropWhile_concat (by decide)]
        exact ofLine_concat (pushFootnote st) (.start (s.dropWhile isInlineSpacing))
    | none =>
        cases hi : listItem? (cur.indent 4).1 (cur.indent 4).2 with
        | some item =>
            obtain ⟨marker, width, inner⟩ := item
            have hshorter : inner.rest.length < cur.rest.length :=
              Nat.lt_of_lt_of_le (listItem?_length_lt hi) hle
            exact inItem_concat _ inner (ofLine_concat _ inner)
        | none =>
            cases hq : (cur.indent 4).2.char? '>' with
            | some inner =>
                have hshorter : (inner.skip 1).2.rest.length < cur.rest.length :=
                  Nat.lt_of_le_of_lt (Cursor.skip_length_le 1 inner)
                    (Nat.lt_of_lt_of_le (Cursor.char?_length_lt hq) hle)
                exact inQuote_concat _ inner (ofLine_concat _ _)
            | none => exact .leaf st cur
termination_by cur.rest.length
decreasing_by all_goals exact hshorter

end Opened

end Tangle.Markdown
