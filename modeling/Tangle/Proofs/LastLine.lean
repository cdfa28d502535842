import Tangle.Proofs.Outside
import Tangle.Proofs.Suffix

/-!
# A line feed behind the last line

The end of a text ends its last line just as a line feed does. So a reader that
is given `s` and one that is given `s` with a line feed behind it take the same
steps. They can only come apart at the very end, where the line feed is still
there to be passed: either both leave the same rest, the second one with the
line feed behind it, or the reader has passed the last line end and nothing is
left of either text. `Longer` says that of two rests.

A reader that stops before a line end never gets that far, so it leaves the
line feed in every case and an equation says so. The readers that pass a line
end have a lemma about `Longer` instead. The file goes through both kinds in the
order in which they build on each other.
-/

namespace Tangle.Markdown

/-- Of a text and the same text with a line feed behind it, this can be left
after the same steps. -/
def Longer (r r' : Text) : Prop := r' = r ++ ['\n'] ∨ r = [] ∧ r' = []

theorem Longer.concat (r : Text) : Longer r (r ++ ['\n']) := Or.inl rfl

theorem Longer.nil : Longer [] [] := Or.inr ⟨rfl, rfl⟩

/-! ## Lists -/

/-- What stands in front of the line feed and does not hold one is the
beginning of the text. -/
theorem eq_append_of_concat (p : Text) {s t : Text} (hp : '\n' ∉ p)
    (h : s ++ ['\n'] = p ++ t) : ∃ s', s = p ++ s' ∧ t = s' ++ ['\n'] := by
  induction p generalizing s with
  | nil => exact ⟨s, rfl, h.symm⟩
  | cons c p ih =>
      cases s with
      | nil =>
          exact absurd (List.cons.inj h).1 (List.ne_of_not_mem_cons hp)
      | cons d s =>
          obtain ⟨rfl, h'⟩ := List.cons.inj h
          obtain ⟨s', rfl, ht⟩ := ih (List.not_mem_of_not_mem_cons hp) h'
          exact ⟨s', rfl, ht⟩

theorem head?_concat {c : Char} (hc : c ≠ '\n') (s : Text) :
    (s ++ ['\n']).head? = some c ↔ s.head? = some c := by
  cases s <;> simp [Ne.symm hc]

theorem dropWhile_concat {p : Char → Bool} (hp : p '\n' = false) (s : Text) :
    (s ++ ['\n']).dropWhile p = s.dropWhile p ++ ['\n'] := by
  rw [List.dropWhile_append]
  split
  · rename_i h
    rw [List.isEmpty_iff.1 h, List.dropWhile_cons_of_neg (by simp [hp])]
    rfl
  · rfl

theorem takeWhile_concat {p : Char → Bool} (hp : p '\n' = false) (s : Text) :
    (s ++ ['\n']).takeWhile p = s.takeWhile p := by
  induction s with
  | nil => simp [hp]
  | cons c s ih =>
      rw [List.cons_append, List.takeWhile_cons, List.takeWhile_cons, ih]

/-- A backslash that has nothing to escape stands at the end of the text. -/
theorem ne_backslash {c : Char} {s : Text}
    (hescape : ∀ d t, c = '\\' → s = d :: t → False)
    (hlast : ¬ (c = '\\' ∧ s = [])) : c ≠ '\\' := by
  intro hc
  rcases s with _ | ⟨d, s⟩
  · exact hlast ⟨hc, rfl⟩
  · exact hescape d s hc rfl

/-! ## Lines -/

theorem afterLineEnd?_concat (s : Text) :
    Option.Rel Longer (afterLineEnd? s) (afterLineEnd? (s ++ ['\n'])) := by
  rcases s with _ | ⟨c, s⟩
  · exact .some .nil
  by_cases hfeed : c = '\n'
  · rw [hfeed]
    exact .some (.concat s)
  by_cases hreturn : c = '\r'
  · rw [hreturn]
    -- A carriage return at the end takes the line feed with it.
    rcases s with _ | ⟨d, s⟩
    · exact .some .nil
    · by_cases hd : d = '\n'
      · rw [hd]
        exact .some (.concat s)
      · simpa [afterLineEnd?, hd] using Longer.concat (d :: s)
  · rw [List.cons_append, afterLineEnd?_of_ne hfeed hreturn,
      afterLineEnd?_of_ne hfeed hreturn]
    exact .none

theorem afterBlankLine?_concat (s : Text) :
    Option.Rel Longer (afterBlankLine? s) (afterBlankLine? (s ++ ['\n'])) := by
  rw [afterBlankLine?, afterBlankLine?, dropWhile_concat (by decide)]
  exact afterLineEnd?_concat _

theorem isSome_eq_of_rel {α β : Type} {R : α → β → Prop} {a : Option α}
    {b : Option β} (h : Option.Rel R a b) : b.isSome = a.isSome := by
  cases h <;> rfl

theorem startsBlank_concat (s : Text) : startsBlank (s ++ ['\n']) = startsBlank s :=
  isSome_eq_of_rel (afterBlankLine?_concat s)

theorem Longer.startsBlank_eq {r r' : Text} (h : Longer r r') :
    startsBlank r' = startsBlank r := by
  rcases h with rfl | ⟨rfl, rfl⟩
  · exact startsBlank_concat r
  · rfl

theorem Longer.getD {s s' : Text} {r r' : Option Text} (h : Option.Rel Longer r r')
    (hs : Longer s s') : Longer (r.getD s) (r'.getD s') := by
  cases h with
  | some h => exact h
  | none => exact hs

/-- The line feed ends the last line, and it makes one if there was none. -/
theorem splitLine_concat (s : Text) :
    ('\n' ∈ s ∧ splitLine (s ++ ['\n']) =
      ((splitLine s).1, (splitLine s).2 ++ ['\n'])) ∨
    ('\n' ∉ s ∧ splitLine s = (s, []) ∧
      splitLine (s ++ ['\n']) = (s ++ ['\n'], [])) := by
  induction s with
  | nil => exact Or.inr ⟨List.not_mem_nil, rfl, rfl⟩
  | cons c s ih =>
      by_cases hc : c = '\n'
      · rw [hc]
        exact Or.inl ⟨List.mem_cons_self .., by simp [splitLine]⟩
      · rcases ih with ⟨hmem, hs⟩ | ⟨hmem, hs, hs'⟩
        · refine Or.inl ⟨List.mem_cons_of_mem c hmem, ?_⟩
          simp [splitLine, hc, hs]
        · refine Or.inr ⟨?_, ?_, ?_⟩
          · simp [Ne.symm hc, hmem]
          · simp [splitLine, hc, hs]
          · simp [splitLine, hc, hs']

theorem dropProseLine_concat (s : Text) :
    Longer (dropProseLine s) (dropProseLine (s ++ ['\n'])) := by
  fun_induction dropProseLine s with
  | case1 => exact .nil
  | case2 s => exact .concat s
  | case3 s => exact .concat s
  | case4 s hs =>
      rcases s with _ | ⟨c, s⟩
      · exact .nil
      · have hc : c ≠ '\n' := by
          rintro rfl
          exact hs s rfl
        simpa [dropProseLine, hc] using Longer.concat (c :: s)
  | case5 c s hfeed _ hreturn ih =>
      rw [List.cons_append, dropProseLine]
      · exact ih
      · exact hfeed
      · exact fun _ hc _ => hreturn hc
      · exact hreturn

theorem runLength_concat {c : Char} (hc : c ≠ '\n') (s : Text) :
    runLength c (s ++ ['\n']) = runLength c s := by
  induction s with
  | nil => simp [runLength, Ne.symm hc]
  | cons d s ih => rw [List.cons_append, runLength, runLength, ih]

theorem runLength_le (c : Char) (s : Text) : runLength c s ≤ s.length := by
  induction s with
  | nil => exact Nat.le_refl _
  | cons d s ih =>
      rw [runLength, List.length_cons]
      split <;> omega

theorem drop_runLength_concat {c : Char} (hc : c ≠ '\n') (s : Text) :
    (s ++ ['\n']).drop (runLength c (s ++ ['\n'])) =
      s.drop (runLength c s) ++ ['\n'] := by
  rw [runLength_concat hc, List.drop_append_of_le_length (runLength_le c s)]

/-! ## Cursors and containers -/

namespace Cursor

/-- The cursor with a line feed behind the text ahead. -/
def concat (c : Cursor) : Cursor := { c with rest := c.rest ++ ['\n'] }

@[simp] theorem rest_concat (c : Cursor) : c.concat.rest = c.rest ++ ['\n'] := rfl

@[simp] theorem owed_concat (c : Cursor) : c.concat.owed = c.owed := rfl

theorem start_concat (s : Text) : start (s ++ ['\n']) = (start s).concat := rfl

theorem skipText_concat (column : Nat) (s : Text) (n : Nat) :
    skipText column (s ++ ['\n']) n =
      ((skipText column s n).1, (skipText column s n).2.concat) := by
  fun_induction skipText column s n with
  | case1 column s n ih => simpa [skipText] using ih
  | case2 column s n h ih => simpa [skipText, h] using ih
  | case3 column s n h => simp [skipText, h, concat]
  | case4 column s n hspace htab =>
      rw [skipText]
      · rfl
      · intro t m ht hm
        obtain ⟨s', hs', _⟩ := eq_append_of_concat [' '] (by decide) ht
        exact hspace s' m hs' hm
      · intro t m ht hm
        obtain ⟨s', hs', _⟩ := eq_append_of_concat ['\t'] (by decide) ht
        exact htab s' m hs' hm

theorem skip_concat (n : Nat) (c : Cursor) :
    c.concat.skip n = ((c.skip n).1, (c.skip n).2.concat) := by
  unfold skip
  rw [owed_concat]
  split
  · rfl
  · exact skipText_concat ..

theorem indent_concat (n : Nat) (c : Cursor) :
    c.concat.indent n = ((c.indent n).1, (c.indent n).2.concat) := by
  rw [indent, skip_concat]
  rfl

theorem skipAll_concat (c : Cursor) : c.concat.skipAll = c.skipAll.concat := by
  simp [skipAll, concat, dropWhile_concat]

theorem atLineEnd_concat (c : Cursor) : c.concat.atLineEnd = c.atLineEnd := by
  rw [atLineEnd, atLineEnd, rest_concat]
  cases c.rest <;> rfl

theorem char?_concat {d : Char} (hd : d ≠ '\n') (c : Cursor) :
    c.concat.char? d = (c.char? d).map concat := by
  unfold char?
  rw [rest_concat]
  rcases c.rest with _ | ⟨e, s⟩
  · simp [Ne.symm hd]
  · by_cases he : e = d <;> simp [he, concat]

end Cursor

namespace Container

theorem continue?_concat (cur : Cursor) (c : Container) :
    c.continue? cur.concat = (c.continue? cur).map Cursor.concat := by
  cases c with
  | list marker tight => rfl
  | quote =>
      simp only [continue?, Cursor.skip_concat,
        Cursor.char?_concat (show '>' ≠ '\n' by decide), Option.map_map]
      refine congrArg (Option.map · _) (funext fun d => ?_)
      simp only [Function.comp_apply, Cursor.skip_concat]
  | item n =>
      simp only [continue?, Cursor.skip_concat, Cursor.atLineEnd_concat]
      split <;> rfl
  | footnote =>
      simp only [continue?, Cursor.skip_concat, Cursor.atLineEnd_concat]
      split <;> rfl

theorem continued_concat (cs : List Container) (cur : Cursor) :
    continued cs cur.concat =
      ((continued cs cur).1, (continued cs cur).2.concat) := by
  induction cs generalizing cur with
  | nil => rfl
  | cons c cs ih =>
      rw [continued, continued, continue?_concat]
      cases c.continue? cur with
      | none => rfl
      | some cur' => simp [ih]

theorem allContinued_concat (cs : List Container) (line : Text) :
    allContinued cs (line ++ ['\n']) = allContinued cs line := by
  rw [allContinued, Cursor.start_concat, continued_concat]
  rfl

theorem inside_concat (cs : List Container) (line : Text) :
    inside cs (line ++ ['\n']) = (inside cs line).concat := by
  rw [inside, Cursor.start_concat, continued_concat]
  rfl

theorem ahead_concat (cs : List Container) (line : Text) (n : Nat) :
    (inside cs (line ++ ['\n'])).skip n =
      (((inside cs line).skip n).1, ((inside cs line).skip n).2.concat) := by
  rw [inside_concat, Cursor.skip_concat]

end Container

theorem Longer.allContinued_eq {r r' : Text} (h : Longer r r')
    (cs : List Container) :
    Container.allContinued cs r' = Container.allContinued cs r := by
  rcases h with rfl | ⟨rfl, rfl⟩
  · exact Container.allContinued_concat cs r
  · rfl

theorem Longer.rest_inside {r r' : Text} (h : Longer r r') (cs : List Container) :
    Longer (Container.inside cs r).rest (Container.inside cs r').rest := by
  rcases h with rfl | ⟨rfl, rfl⟩
  · rw [Container.inside_concat]
    exact .concat _
  · rw [List.suffix_nil.1 (Container.inside_suffix cs [])]
    exact .nil

/-! ## Raw HTML -/

theorem dropPrefixIgnoringCase?_concat {p : List Char} (hp : '\n' ∉ p) (s : Text) :
    dropPrefixIgnoringCase? p (s ++ ['\n']) =
      (dropPrefixIgnoringCase? p s).map (· ++ ['\n']) := by
  unfold dropPrefixIgnoringCase?
  by_cases hle : p.length ≤ s.length
  · rw [List.take_append_of_le_length hle, List.drop_append_of_le_length hle]
    split <;> rfl
  · -- Neither text is long enough, or the prefix would have to hold the line feed.
    have hshort : ¬ (s.take p.length).map lowerAscii = p := by
      intro h
      have := congrArg List.length h
      rw [List.length_map, List.length_take] at this
      omega
    have hlong : ¬ ((s ++ ['\n']).take p.length).map lowerAscii = p := by
      intro h
      rw [List.take_of_length_le (by simp; omega)] at h
      refine hp ?_
      rw [← h, List.map_append]
      exact List.mem_append_right _ (by decide)
    rw [if_neg hshort, if_neg hlong]
    rfl

namespace Html

theorem rawClosing?_concat (s : Text) :
    rawClosing? (s ++ ['\n']) = rawClosing? s := by
  have hdrop : ∀ name ∈ rawElements,
      dropPrefixIgnoringCase? name.toList (s ++ ['\n']) =
        (dropPrefixIgnoringCase? name.toList s).map (· ++ ['\n']) := by
    have hname : ∀ name ∈ rawElements, '\n' ∉ name.toList := by decide
    exact fun name hn => dropPrefixIgnoringCase?_concat (hname name hn) s
  unfold rawClosing?
  generalize rawElements = names at hdrop
  induction names with
  | nil => rfl
  | cons name names ih =>
      rw [List.findSome?_cons, List.findSome?_cons,
        ih fun n hn => hdrop n (List.mem_cons_of_mem name hn),
        hdrop name (List.mem_cons_self ..)]
      rcases dropPrefixIgnoringCase? name.toList s with _ | _ | ⟨c, s⟩ <;> rfl

theorem closing?_concat (s : Text) : closing? (s ++ ['\n']) = closing? s := by
  unfold closing?
  rw [rawClosing?_concat]
  cases rawClosing? s with
  | some e => rfl
  | none =>
      dsimp only
      split
      · rename_i t h
        obtain ⟨t', rfl, -⟩ := eq_append_of_concat ['!', '-', '-'] (by decide) h
        rfl
      · rename_i t h
        obtain ⟨t', rfl, -⟩ := eq_append_of_concat ['?'] (by decide) h
        rfl
      · rename_i t h
        obtain ⟨t', rfl, -⟩ :=
          eq_append_of_concat ['!', '[', 'C', 'D', 'A', 'T', 'A', '['] (by decide) h
        rfl
      · rename_i c t hcomment hdata h
        obtain ⟨t', rfl, ht⟩ := eq_append_of_concat ['!'] (by decide) h
        rcases t' with _ | ⟨c', t'⟩
        · obtain ⟨rfl, -⟩ := List.cons.inj ht
          rfl
        · obtain ⟨rfl, rfl⟩ := List.cons.inj ht
          symm
          dsimp only [List.cons_append, List.nil_append]
          split
          · rename_i h'
            cases h'
            exact (hcomment _ rfl rfl).elim
          · rename_i h'
            cases h'
          · rename_i h'
            cases h'
            exact (hdata _ rfl rfl).elim
          · rename_i h'
            cases h'
            rfl
          · rename_i hother
            exact (hother _ _ rfl).elim
      · rename_i hcomment hquestion hdata hdeclaration
        split
        · exact (hcomment _ rfl).elim
        · exact (hquestion _ rfl).elim
        · exact (hdata _ rfl).elim
        · exact (hdeclaration _ _ rfl).elim
        · rfl

theorem startsBlockElement_concat (s : Text) :
    startsBlockElement (s ++ ['\n']) = startsBlockElement s := by
  -- What may follow the name is the same at a line feed and at the end.
  have hend (name s : Text) : (blockElements.contains (String.ofList name) &&
      match s ++ ['\n'] with
      | [] => true
      | ['/'] => false
      | '/' :: c :: _ => c = '>'
      | c :: _ => c = ' ' || c = '\t' || c = '\r' || c = '\n' || c = '>') =
      (blockElements.contains (String.ofList name) &&
      match s with
      | [] => true
      | ['/'] => false
      | '/' :: c :: _ => c = '>'
      | c :: _ => c = ' ' || c = '\t' || c = '\r' || c = '\n' || c = '>') := by
    rcases s with _ | ⟨c, _ | ⟨d, s⟩⟩
    · rfl
    · by_cases hc : c = '/' <;> simp [hc]
    · by_cases hc : c = '/' <;> simp [hc]
  have hbody (s : Text) : startsBlockElement ('/' :: (s ++ ['\n'])) =
      startsBlockElement ('/' :: s) := by
    rw [startsBlockElement, startsBlockElement, takeWhile_concat (by decide),
      dropWhile_concat (by decide)]
    exact hend _ _
  rcases s with _ | ⟨c, s⟩
  · exact hbody []
  by_cases hc : c = '/'
  · rw [hc]
    exact hbody s
  · have hslash (s : Text) :
        startsBlockElement (c :: s) = startsBlockElement ('/' :: c :: s) := by
      simp [startsBlockElement, hc]
    rw [List.cons_append, hslash, hslash]
    exact hbody (c :: s)

theorem afterValue?_concat (s : Text) :
    afterValue? (s ++ ['\n']) = (afterValue? s).map (· ++ ['\n']) := by
  rcases s with _ | ⟨c, s⟩
  · rfl
  rw [List.cons_append, afterValue?, afterValue?]
  split
  · rename_i hquote
    have hc : c ≠ '\n' := by
      rintro rfl
      exact absurd hquote (by decide)
    rw [dropWhile_concat (by simp)]
    rcases s.dropWhile _ with _ | ⟨d, t⟩
    · exact if_neg (Ne.symm hc)
    · dsimp only [List.cons_append]
      split <;> rfl
  · split
    · rfl
    · rw [← List.cons_append, dropWhile_concat (by decide)]
      rfl

/-- Behind a name at the end of the text a line feed looks like the end of the
line, where no attribute may end. -/
theorem afterAttribute?_concat (s : Text) :
    afterAttribute? (s ++ ['\n']) = (afterAttribute? s).map (· ++ ['\n']) ∨
    afterAttribute? (s ++ ['\n']) = none ∧
      ∃ r, afterAttribute? s = some r ∧ r.dropWhile isInlineSpacing = [] := by
  rcases s with _ | ⟨c, s⟩
  · exact Or.inl rfl
  rw [List.cons_append, afterAttribute?, afterAttribute?]
  split
  · rw [dropWhile_concat (by decide)]
    generalize s.dropWhile _ = name
    dsimp only
    rw [dropWhile_concat (by decide)]
    cases hahead : name.dropWhile isInlineSpacing with
    | nil => exact Or.inr ⟨rfl, name, rfl, hahead⟩
    | cons d v =>
        refine Or.inl ?_
        by_cases hfeed : d = '\n'
        · simp [hfeed]
        by_cases hreturn : d = '\r'
        · simp [hreturn]
        by_cases hequals : d = '='
        · simp only [hequals, List.cons_append]
          rw [dropWhile_concat (by decide)]
          rcases v.dropWhile isInlineSpacing with _ | ⟨e, v⟩
          · rfl
          · by_cases hfeed : e = '\n'
            · simp [hfeed]
            by_cases hreturn : e = '\r'
            · simp [hreturn]
            · simpa [hfeed, hreturn] using afterValue?_concat (e :: v)
        · simp [hfeed, hreturn, hequals]
  · exact Or.inl rfl

theorem afterAttributes?_of_blank {s : Text}
    (h : s.dropWhile isInlineSpacing = []) : afterAttributes? s = none := by
  rw [afterAttributes?, h]
  simp [afterAttribute?]

theorem afterAttributes?_concat (s : Text) :
    afterAttributes? (s ++ ['\n']) = (afterAttributes? s).map (· ++ ['\n']) := by
  have hany (s : Text) :
      (s ++ ['\n']).head?.any isInlineSpacing = s.head?.any isInlineSpacing := by
    cases s <;> rfl
  have hslash (s : Text) := head?_concat (show '/' ≠ '\n' by decide) s
  have hangle (s : Text) := head?_concat (show '>' ≠ '\n' by decide) s
  fun_induction afterAttributes? s with
  | case1 s ahead h =>
      rw [afterAttributes?, dropWhile_concat (by decide)]
      simp only [hslash, hangle]
      exact if_pos h
  | case2 s ahead h hs hnone =>
      rw [afterAttributes?, dropWhile_concat (by decide)]
      simp only [hslash, hangle]
      rw [if_neg h, hany, if_pos hs]
      split
      · rfl
      · rename_i r hr
        rcases afterAttribute?_concat ahead with h' | ⟨h', -⟩
        · rw [hnone, hr] at h'
          cases h'
        · rw [hr] at h'
          cases h'
  | case3 s ahead h hs r hr ih =>
      rw [afterAttributes?, dropWhile_concat (by decide)]
      simp only [hslash, hangle]
      rw [if_neg h, hany, if_pos hs]
      rcases afterAttribute?_concat ahead with h' | ⟨h', r', hr', hblank⟩
      · rw [hr] at h'
        split
        · rename_i hn
          cases h'.symm.trans hn
        · rename_i hn
          cases h'.symm.trans hn
          exact ih
      · -- The line feed in front of the next attribute comes too early.
        cases hr.symm.trans hr'
        rw [afterAttributes?_of_blank hblank]
        split
        · rfl
        · rename_i hn
          cases h'.symm.trans hn
  | case4 s ahead h hs =>
      rw [afterAttributes?, dropWhile_concat (by decide)]
      simp only [hslash, hangle]
      rw [if_neg h, hany, if_neg hs]
      rfl

theorem afterTag?_concat (s : Text) :
    afterTag? (s ++ ['\n']) = (afterTag? s).map (· ++ ['\n']) := by
  have hslash (s : Text) := head?_concat (show '/' ≠ '\n' by decide) s
  have hskip (s : Text) :
      (if (s ++ ['\n']).head? = some '/' then (s ++ ['\n']).drop 1
        else s ++ ['\n']) =
      (if s.head? = some '/' then s.drop 1 else s) ++ ['\n'] := by
    rcases s with _ | ⟨c, s⟩
    · rfl
    · by_cases hc : c = '/' <;> simp [hc]
  -- What stands behind the name of the tag, up to the angle bracket.
  have hbehind (closes : Prop) [Decidable closes] (behind : Text) :
      (if closes then some ((behind ++ ['\n']).dropWhile isInlineSpacing)
        else (afterAttributes? (behind ++ ['\n'])).map
          fun s => if s.head? = some '/' then s.drop 1 else s) =
      (if closes then some (behind.dropWhile isInlineSpacing)
        else (afterAttributes? behind).map
          fun s => if s.head? = some '/' then s.drop 1 else s).map (· ++ ['\n']) := by
    split
    · rw [dropWhile_concat (by decide), Option.map_some]
    · rw [afterAttributes?_concat, Option.map_map, Option.map_map]
      exact congrArg (Option.map · _) (funext hskip)
  simp only [afterTag?]
  rw [hskip]
  generalize (if s.head? = some '/' then s.drop 1 else s) = name
  rcases name with _ | ⟨c, name⟩
  · rfl
  dsimp only [List.cons_append]
  split
  · rw [← List.cons_append, dropWhile_concat (by decide),
      dropWhile_concat (by decide)]
    simp only [hslash, hbehind]
    generalize (if s.head? = some '/' then _ else _) = rest
    rcases rest with _ | _ | ⟨d, rest⟩
    · rfl
    · rfl
    · by_cases hd : d = '>' <;> simp [hd]
  · rfl

theorem startsLoneTag_concat (s : Text) :
    startsLoneTag (s ++ ['\n']) = startsLoneTag s := by
  rw [startsLoneTag, startsLoneTag, afterTag?_concat]
  cases afterTag? s with
  | none => rfl
  | some r => exact startsBlank_concat r

theorem interrupts_concat (s : Text) : interrupts (s ++ ['\n']) = interrupts s := by
  rcases s with _ | ⟨c, s⟩
  · rfl
  by_cases hc : c = '<'
  · simp only [hc, List.cons_append, interrupts]
    rw [closing?_concat, startsBlockElement_concat]
  · simp [interrupts, hc]

end Html

end Tangle.Markdown
