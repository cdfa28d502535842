import Mathlib.Data.List.ModifyLast
import Tangle.Proofs.FenceReading
import Tangle.Proofs.LastOpening

/-!
# The blocks of a text, with a line feed behind the last line

The lines of a block are kept with their line feeds. So the line feed at the end
of a text shows in the last block if that block reaches to the end, and nowhere
else. It is not quite the only thing that shows: a line without anything behind
its containers is one of the block's only if it has a line feed, and what is left
of a tab behind the containers is then kept as spaces in front of it. Blanks are
all that can be added in this way, and they are added at the end of the last
block (`parseBlocks_concat`).

Lines that end with a carriage return are left out. The return is kept or not
depending on how many bytes stand behind it.
-/

namespace Tangle.Markdown

/-! ## The lines that are kept -/

/-- Only spaces, tabs and line feeds. -/
def Blanks (w : Text) : Prop := ∀ c ∈ w, c = ' ' ∨ c = '\t' ∨ c = '\n'

theorem Blanks.nil : Blanks [] := nofun

theorem Blanks.lineFeed : Blanks ['\n'] := by simp [Blanks]

theorem Blanks.spaces (n : Nat) : Blanks (Text.spaces n) := by
  intro c hc
  exact Or.inl (List.eq_of_mem_replicate hc)

theorem Blanks.append {v w : Text} (hv : Blanks v) (hw : Blanks w) :
    Blanks (v ++ w) :=
  fun c hc => (List.mem_append.1 hc).elim (hv c) (hw c)

namespace Cursor

theorem blanks_of_skipText {column n : Nat} {s : Text}
    (h : (skipText column s n).2.rest = []) : ∀ c ∈ s, c = ' ' ∨ c = '\t' := by
  fun_induction skipText column s n with
  | case1 column s n ih =>
      intro c hc
      rcases List.mem_cons.1 hc with rfl | hc
      · exact Or.inl rfl
      · exact ih h c hc
  | case2 column s n _ ih =>
      intro c hc
      rcases List.mem_cons.1 hc with rfl | hc
      · exact Or.inr rfl
      · exact ih h c hc
  | case3 column s n _ =>
      intro c hc
      have hs : s = [] := h
      rw [hs] at hc
      exact Or.inr (List.mem_singleton.1 hc)
  | case4 column s n _ _ =>
      have hs : s = [] := h
      rw [hs]
      exact fun c hc => absurd hc List.not_mem_nil

/-- If skipping columns uses up the text, there was nothing else in it. -/
theorem blanks_of_skip {n : Nat} {c : Cursor} (h : (c.skip n).2.rest = []) :
    ∀ d ∈ c.rest, d = ' ' ∨ d = '\t' := by
  unfold skip at h
  split at h
  · have hrest : c.rest = [] := h
    rw [hrest]
    nofun
  · exact blanks_of_skipText h

end Cursor

/-- Behind its containers the text holds nothing but the blanks of one line. -/
def Drained (cs : List Container) (s : Text) : Prop :=
  ((Container.inside cs s).skip 4).2.rest = []

theorem Drained.nil (cs : List Container) : Drained cs [] :=
  List.suffix_nil.1 (Container.ahead_suffix cs [] 4)

theorem Drained.of_inside {cs : List Container} {s : Text}
    (h : (Container.inside cs s).rest = []) : Drained cs s :=
  List.suffix_nil.1 (h ▸ Cursor.skip_suffix 4 _)

namespace Leaf

theorem lineText_concat {line : Text} (hline : '\r' ∉ line) (owed : Nat) :
    lineText owed (line ++ ['\n']) = lineText owed line ++ ['\n'] := by
  rw [lineText, lineText, unifyLineEnd_of_not_mem hline,
    unifyLineEnd_of_not_mem (by simpa using hline), List.append_assoc]

/-- What two readings of a block's lines come to: the same lines with the line
feed still to come, or one more run of blanks behind the last line with nothing
else left. -/
inductive Extends (cs : List Container) :
    List Text × Text → List Text × Text → Prop where
  | same (lines : List Text) {rest rest' : Text} (h : Longer rest rest') :
    Extends cs (lines, rest) (lines, rest')
  | last {lines lines' : List Text} {rest w : Text} (hw : Blanks w)
    (hlines : lines'.flatten = lines.flatten ++ w) (hrest : Drained cs rest) :
    Extends cs (lines, rest) (lines', [])

theorem Extends.cons {cs : List Container} {read read' : List Text × Text}
    (h : Extends cs read read') (line : Text) :
    Extends cs (line :: read.1, read.2) (line :: read'.1, read'.2) := by
  cases h with
  | same lines h => exact .same _ h
  | last hw hlines hrest =>
      refine .last hw ?_ hrest
      rw [List.flatten_cons, hlines, List.flatten_cons, List.append_assoc]

/-- The last line of the text, which the line feed ends. -/
theorem Extends.lastLine (cs : List Container) (owed : Nat) {line : Text}
    (hreturn : '\r' ∉ line) :
    Extends cs ([lineText owed line], []) ([lineText owed (line ++ ['\n'])], []) := by
  rw [lineText_concat hreturn]
  exact .last .lineFeed (by simp) (.nil cs)

theorem afterClosingFence?_concat {mark : Char} (hmark : mark ≠ '\n') (width : Nat)
    {s : Text} (hs : s ≠ []) :
    Option.Rel Longer (afterClosingFence? mark width s)
      (afterClosingFence? mark width (s ++ ['\n'])) := by
  cases s with
  | nil => exact absurd rfl hs
  | cons c s =>
      rw [List.cons_append, afterClosingFence?, afterClosingFence?, ← List.cons_append,
        runLength_concat hmark,
        List.drop_append_of_le_length (runLength_le mark (c :: s)),
        dropWhile_concat (by decide)]
      split
      · exact .none
      · exact afterLineEnd?_concat _

theorem afterClosingFence?_lineFeed {mark : Char} (hmark : mark ≠ '\n') (width : Nat) :
    afterClosingFence? mark width ['\n'] = none ∨
      afterClosingFence? mark width ['\n'] = some [] := by
  rw [afterClosingFence?]
  simp only [runLength, if_neg hmark.symm]
  split
  · exact Or.inl rfl
  · exact Or.inr rfl

/-- A line of a fenced block that continues the containers, and what follows. -/
def fencedLine (cs : List Container) (mark : Char) (width indent : Nat) (s : Text) :
    List Text × Text :=
  let cur := ((Container.inside cs s).skip indent).2
  let near := cur.skip (4 - indent)
  match if near.1 = 0 then none else afterClosingFence? mark width near.2.rest with
  | some rest => ([], rest)
  | none =>
    (lineText cur.owed (splitLine cur.rest).1 ::
        (fenced cs mark width indent (splitLine cur.rest).2).1,
      (fenced cs mark width indent (splitLine cur.rest).2).2)

theorem fenced_nil (cs : List Container) (mark : Char) (width indent : Nat) :
    fenced cs mark width indent [] = ([], []) := by
  rw [fenced]

theorem fenced_cons (cs : List Container) (mark : Char) (width indent : Nat)
    (c : Char) (t : Text) :
    fenced cs mark width indent (c :: t) =
      if !Container.allContinued cs (c :: t) then
        ([], (afterBlankLine? (c :: t)).getD (c :: t))
      else fencedLine cs mark width indent (c :: t) := by
  rw [fenced]
  rfl

theorem fencedLine_lineFeed (cs : List Container) {mark : Char}
    (hmark : mark ≠ '\n') (width indent : Nat) :
    ∃ lines, fencedLine cs mark width indent ['\n'] = (lines, []) ∧
      Blanks lines.flatten := by
  have hcur : ((Container.inside cs []).skip indent).2.rest = [] :=
    List.suffix_nil.1 (Container.ahead_suffix cs [] indent)
  have hfeed := Container.ahead_concat cs [] indent
  rw [List.nil_append] at hfeed
  unfold fencedLine
  rw [hfeed]
  generalize ((Container.inside cs []).skip indent).2 = cur at hcur ⊢
  have hnear : (cur.skip (4 - indent)).2.rest = [] :=
    List.suffix_nil.1 (hcur ▸ Cursor.skip_suffix (4 - indent) cur)
  dsimp only
  rw [Cursor.skip_concat]
  dsimp only [Cursor.rest_concat, Cursor.owed_concat]
  rw [hcur, hnear, List.nil_append]
  split
  · rename_i rest h
    refine ⟨[], ?_, .nil⟩
    split at h
    · cases h
    · rcases afterClosingFence?_lineFeed hmark width with hnone | hsome
      · cases hnone.symm.trans h
      · cases hsome.symm.trans h
        rfl
  · have hsplit : splitLine ['\n'] = (['\n'], []) := rfl
    rw [hsplit, fenced_nil]
    refine ⟨_, rfl, ?_⟩
    simpa [lineText, unifyLineEnd] using (Blanks.spaces cur.owed).append .lineFeed

theorem fencedLine_concat (cs : List Container) {mark : Char} (hmark : mark ≠ '\n')
    (width indent : Nat) {s : Text} (hreturn : '\r' ∉ s)
    (ih : ∀ t : Text, t.length < s.length → '\r' ∉ t →
      Extends cs (fenced cs mark width indent t)
        (fenced cs mark width indent (t ++ ['\n']))) :
    Extends cs (fencedLine cs mark width indent s)
      (fencedLine cs mark width indent (s ++ ['\n'])) := by
  have hcur : ((Container.inside cs s).skip indent).2.rest <:+ s :=
    Container.ahead_suffix cs s indent
  unfold fencedLine
  rw [Container.ahead_concat]
  dsimp only
  generalize ((Container.inside cs s).skip indent).2 = cur at hcur ⊢
  have hplain : '\r' ∉ cur.rest := fun h => hreturn (hcur.subset h)
  rw [Cursor.skip_concat]
  dsimp only [Cursor.rest_concat, Cursor.owed_concat]
  -- The line is kept, by both readers.
  have hline : Extends cs
      (lineText cur.owed (splitLine cur.rest).1 ::
          (fenced cs mark width indent (splitLine cur.rest).2).1,
        (fenced cs mark width indent (splitLine cur.rest).2).2)
      (lineText cur.owed (splitLine (cur.rest ++ ['\n'])).1 ::
          (fenced cs mark width indent (splitLine (cur.rest ++ ['\n'])).2).1,
        (fenced cs mark width indent (splitLine (cur.rest ++ ['\n'])).2).2) := by
    rcases splitLine_concat cur.rest with ⟨hfeed, h⟩ | ⟨-, h, h'⟩
    · rw [h]
      have hshort := splitLine_length_le cur.rest
      have hpos := List.length_pos_of_mem hfeed
      have hlength := hcur.length_le
      refine .cons (ih _ (by omega) fun hmem => ?_) _
      exact hplain ((splitLine_suffix cur.rest).subset hmem)
    · rw [h, h', fenced_nil]
      exact .lastLine cs cur.owed hplain
  by_cases hnear : (cur.skip (4 - indent)).1 = 0
  · rw [if_pos hnear, if_pos hnear]
    exact hline
  · rw [if_neg hnear, if_neg hnear]
    by_cases hrest : (cur.skip (4 - indent)).2.rest = []
    · -- At the end of the text the block counts as closed, and the line is not kept.
      have hblank := Cursor.blanks_of_skip hrest
      rw [hrest, List.nil_append]
      rcases afterClosingFence?_lineFeed hmark width with hfeed | hfeed
      · have hnot : '\n' ∉ cur.rest := by
          intro hmem
          rcases hblank _ hmem with h | h <;> exact absurd h (by decide)
        rw [hfeed, splitLine_append_lineFeed hnot, fenced_nil, lineText_concat hplain]
        refine .last (w := lineText cur.owed cur.rest ++ ['\n']) ?_ ?_ (.nil cs)
        · rw [lineText, unifyLineEnd_of_not_mem hplain]
          refine ((Blanks.spaces cur.owed).append ?_).append .lineFeed
          exact fun c hc => (hblank c hc).imp_right Or.inl
        · simp
      · rw [hfeed]
        exact .same [] .nil
    · have hclosing := afterClosingFence?_concat hmark width hrest
      generalize afterClosingFence? mark width (cur.skip (4 - indent)).2.rest = r
        at hclosing ⊢
      generalize afterClosingFence? mark width
        ((cur.skip (4 - indent)).2.rest ++ ['\n']) = r' at hclosing ⊢
      cases hclosing with
      | none => exact hline
      | some h => exact .same [] h

theorem fenced_concat (cs : List Container) {mark : Char} (hmark : mark ≠ '\n')
    (width indent : Nat) : ∀ s : Text, '\r' ∉ s →
      Extends cs (fenced cs mark width indent s)
        (fenced cs mark width indent (s ++ ['\n']))
  | [], _ => by
      rw [fenced_nil, List.nil_append, fenced_cons]
      split
      · exact .same [] .nil
      · obtain ⟨lines, h, hlines⟩ := fencedLine_lineFeed cs hmark width indent
        rw [h]
        exact .last hlines (List.nil_append _).symm (.nil cs)
  | c :: t, hreturn => by
      rw [List.cons_append, fenced_cons, fenced_cons, ← List.cons_append,
        Container.allContinued_concat]
      split
      · exact .same [] (.getD (afterBlankLine?_concat _) (.concat _))
      · exact fencedLine_concat cs hmark width indent hreturn
          fun s hs h => fenced_concat cs hmark width indent s h
termination_by s => s.length
decreasing_by exact hs

/-! ### Indented blocks -/

/-- The same for the lines of an indented block. -/
inductive ExtendsIndented (cs : List Container) :
    List (Bool × Text) × Text → List (Bool × Text) × Text → Prop where
  | same (lines : List (Bool × Text)) (rest : Text) :
    ExtendsIndented cs (lines, rest) (lines, rest ++ ['\n'])
  | last (front : List (Bool × Text)) (blank : Bool) (line : Text) :
    ExtendsIndented cs (front ++ [(blank, line)], [])
      (front ++ [(blank, line ++ ['\n'])], [])
  /-- A blank line at the end is one only if it ends with a line feed. -/
  | blank (lines : List (Bool × Text)) (line : Text) {rest : Text}
    (hrest : Drained cs rest) :
    ExtendsIndented cs (lines, rest) (lines ++ [(true, line)], [])

theorem ExtendsIndented.cons {cs : List Container}
    {read read' : List (Bool × Text) × Text} (h : ExtendsIndented cs read read')
    (line : Bool × Text) :
    ExtendsIndented cs (line :: read.1, read.2) (line :: read'.1, read'.2) := by
  cases h with
  | same lines rest => exact .same _ rest
  | last front blank text => exact .last (line :: front) blank text
  | blank lines text hrest => exact .blank (line :: lines) text hrest

theorem indented_cons (cs : List Container) (blank : Bool) (owed : Nat) (c : Char)
    (t : Text) :
    let next := (splitLine (c :: t)).2
    let ahead := (Container.inside cs next).skip 4
    indented cs blank owed (c :: t) =
      if !Container.allContinued cs next || (ahead.1 ≠ 0 && !ahead.2.atLineEnd) ||
          ahead.2.rest.isEmpty then
        ([(blank, lineText owed (splitLine (c :: t)).1)], next)
      else
        ((blank, lineText owed (splitLine (c :: t)).1) ::
            (indented cs (startsBlank ahead.2.rest) ahead.2.owed ahead.2.rest).1,
          (indented cs (startsBlank ahead.2.rest) ahead.2.owed ahead.2.rest).2) := by
  dsimp only
  rw [indented]

/-- Behind the last line of the text there is no other. -/
theorem indented_last (cs : List Container) (blank : Bool) (owed : Nat) {s : Text}
    (hs : s ≠ []) (hlast : (splitLine s).2 = []) :
    indented cs blank owed s = ([(blank, lineText owed (splitLine s).1)], []) := by
  cases s with
  | nil => exact absurd rfl hs
  | cons c t =>
      have hahead : ((Container.inside cs []).skip 4).2.rest = [] :=
        List.suffix_nil.1 (Container.ahead_suffix cs [] 4)
      rw [indented_cons, hlast, hahead, List.isEmpty_nil, Bool.or_true, if_pos rfl]

theorem indented_concat (cs : List Container) (blank : Bool) (owed : Nat) : ∀ s : Text,
    s ≠ [] → '\r' ∉ s →
      ExtendsIndented cs (indented cs blank owed s)
        (indented cs blank owed (s ++ ['\n']))
  | [], hs, _ => absurd rfl hs
  | c :: t, hs, hreturn => by
      rcases splitLine_concat (c :: t) with ⟨hfeed, h⟩ | ⟨-, h, h'⟩
      · have hnext := splitLine_length_le (c :: t)
        have hplain : '\r' ∉ (splitLine (c :: t)).2 :=
          fun hmem => hreturn ((splitLine_suffix (c :: t)).subset hmem)
        rw [List.cons_append, indented_cons, indented_cons, ← List.cons_append, h]
        dsimp only
        generalize (splitLine (c :: t)).2 = next at hnext hplain ⊢
        have hahead := Container.ahead_suffix cs next 4
        simp only [Container.allContinued_concat, Container.ahead_concat,
          Cursor.rest_concat, Cursor.owed_concat, Cursor.atLineEnd_concat,
          startsBlank_concat]
        generalize (!Container.allContinued cs next ||
          (((Container.inside cs next).skip 4).1 ≠ 0 &&
            !((Container.inside cs next).skip 4).2.atLineEnd)) = stops
        cases stops with
        | true => exact .same _ next
        | false =>
            simp only [Bool.false_or]
            by_cases hrest : ((Container.inside cs next).skip 4).2.rest = []
            · rw [if_pos (by simp [hrest]), if_neg (by simp), hrest, List.nil_append,
                indented_last cs _ _ (by simp) rfl]
              exact .blank [(blank, lineText owed (splitLine (c :: t)).1)] _ hrest
            · rw [if_neg (by simpa using hrest), if_neg (by simp)]
              have hlength := hahead.length_le
              refine .cons (indented_concat cs _ _ _ hrest fun hmem => ?_) _
              exact hplain (hahead.subset hmem)
      · have hlast : (splitLine (c :: t)).2 = [] := by rw [h]
        have hlast' : (splitLine (c :: t ++ ['\n'])).2 = [] := by rw [h']
        rw [indented_last cs blank owed hs hlast,
          indented_last cs blank owed (by simp) hlast', h, h',
          lineText_concat hreturn]
        exact .last [] blank _
termination_by s => s.length
decreasing_by
  rw [List.length_cons] at hnext ⊢
  omega

theorem dropBlankEnd_blank (lines : List (Bool × Text)) (line : Text) :
    dropBlankEnd (lines ++ [(true, line)]) = dropBlankEnd lines := by
  simp [dropBlankEnd]

theorem dropBlankEnd_text (lines : List (Bool × Text)) (line : Text) :
    dropBlankEnd (lines ++ [(false, line)]) = lines.map Prod.snd ++ [line] := by
  simp [dropBlankEnd]

/-- A blank line at the end goes with its line feed, any other one keeps it. -/
theorem flatten_dropBlankEnd_last (front : List (Bool × Text)) (blank : Bool)
    (line : Text) : ∃ w, Blanks w ∧
      (dropBlankEnd (front ++ [(blank, line ++ ['\n'])])).flatten =
        (dropBlankEnd (front ++ [(blank, line)])).flatten ++ w := by
  cases blank with
  | true =>
      refine ⟨[], .nil, ?_⟩
      rw [dropBlankEnd_blank, dropBlankEnd_blank, List.append_nil]
  | false =>
      refine ⟨['\n'], .lineFeed, ?_⟩
      rw [dropBlankEnd_text, dropBlankEnd_text]
      simp

/-! ### Raw HTML -/

theorem htmlUntil_cons (cs : List Container) (closing : Text) (owed : Nat) (c : Char)
    (t : Text) :
    let next := (splitLine (c :: t)).2
    let cur := Container.inside cs next
    htmlUntil cs closing owed (c :: t) =
      if !Container.allContinued cs next || closing.occursIn (splitLine (c :: t)).1 ||
          cur.rest.isEmpty then
        ([lineText owed (splitLine (c :: t)).1], next)
      else
        (lineText owed (splitLine (c :: t)).1 ::
            (htmlUntil cs closing cur.owed cur.rest).1,
          (htmlUntil cs closing cur.owed cur.rest).2) := by
  dsimp only
  rw [htmlUntil]

theorem htmlUntil_last (cs : List Container) (closing : Text) (owed : Nat) {s : Text}
    (hs : s ≠ []) (hlast : (splitLine s).2 = []) :
    htmlUntil cs closing owed s = ([lineText owed (splitLine s).1], []) := by
  cases s with
  | nil => exact absurd rfl hs
  | cons c t =>
      rw [htmlUntil_cons, hlast, List.suffix_nil.1 (Container.inside_suffix cs []),
        List.isEmpty_nil, Bool.or_true, if_pos rfl]

theorem htmlUntil_concat (cs : List Container) (closing : Text) (owed : Nat) :
    ∀ s : Text, s ≠ [] → '\r' ∉ s →
      Extends cs (htmlUntil cs closing owed s)
        (htmlUntil cs closing owed (s ++ ['\n']))
  | [], hs, _ => absurd rfl hs
  | c :: t, hs, hreturn => by
      rcases splitLine_concat (c :: t) with ⟨-, h⟩ | ⟨-, h, h'⟩
      · have hnext := splitLine_length_le (c :: t)
        have hplain : '\r' ∉ (splitLine (c :: t)).2 :=
          fun hmem => hreturn ((splitLine_suffix (c :: t)).subset hmem)
        rw [List.cons_append, htmlUntil_cons, htmlUntil_cons, ← List.cons_append, h]
        dsimp only
        generalize (splitLine (c :: t)).2 = next at hnext hplain ⊢
        have hinside := Container.inside_suffix cs next
        simp only [Container.allContinued_concat, Container.inside_concat,
          Cursor.rest_concat, Cursor.owed_concat]
        generalize (!Container.allContinued cs next ||
          closing.occursIn (splitLine (c :: t)).1) = stops
        cases stops with
        | true => exact .same _ (.concat next)
        | false =>
            simp only [Bool.false_or]
            by_cases hrest : (Container.inside cs next).rest = []
            · rw [if_pos (by simp [hrest]), if_neg (by simp), hrest, List.nil_append,
                htmlUntil_last cs closing _ (by simp) rfl]
              refine .last (w := lineText (Container.inside cs next).owed ['\n']) ?_
                (by simp [splitLine]) (.of_inside hrest)
              exact (Blanks.spaces _).append .lineFeed
            · rw [if_neg (by simpa using hrest), if_neg (by simp)]
              have hlength := hinside.length_le
              refine .cons (htmlUntil_concat cs closing _ _ hrest fun hmem => ?_) _
              exact hplain (hinside.subset hmem)
      · have hlast : (splitLine (c :: t)).2 = [] := by rw [h]
        have hlast' : (splitLine (c :: t ++ ['\n'])).2 = [] := by rw [h']
        rw [htmlUntil_last cs closing owed hs hlast,
          htmlUntil_last cs closing owed (by simp) hlast', h, h']
        exact .lastLine cs owed hreturn
termination_by s => s.length
decreasing_by
  rw [List.length_cons] at hnext ⊢
  omega

theorem htmlUntilBlank_cons (cs : List Container) (owed : Nat) (c : Char) (t : Text) :
    let next := (splitLine (c :: t)).2
    let cur := Container.inside cs next
    htmlUntilBlank cs owed (c :: t) =
      if !Container.allContinued cs next || startsBlank cur.rest then
        ([lineText owed (splitLine (c :: t)).1], next)
      else
        (lineText owed (splitLine (c :: t)).1 ::
            (htmlUntilBlank cs cur.owed cur.rest).1,
          (htmlUntilBlank cs cur.owed cur.rest).2) := by
  dsimp only
  rw [htmlUntilBlank]

theorem htmlUntilBlank_last (cs : List Container) (owed : Nat) {s : Text}
    (hs : s ≠ []) (hlast : (splitLine s).2 = []) :
    htmlUntilBlank cs owed s = ([lineText owed (splitLine s).1], []) := by
  cases s with
  | nil => exact absurd rfl hs
  | cons c t =>
      have hblank : startsBlank [] = true := rfl
      rw [htmlUntilBlank_cons, hlast, List.suffix_nil.1 (Container.inside_suffix cs []),
        hblank, Bool.or_true, if_pos rfl]

theorem htmlUntilBlank_concat (cs : List Container) (owed : Nat) :
    ∀ s : Text, s ≠ [] → '\r' ∉ s →
      Extends cs (htmlUntilBlank cs owed s) (htmlUntilBlank cs owed (s ++ ['\n']))
  | [], hs, _ => absurd rfl hs
  | c :: t, hs, hreturn => by
      rcases splitLine_concat (c :: t) with ⟨-, h⟩ | ⟨-, h, h'⟩
      · have hnext := splitLine_length_le (c :: t)
        have hplain : '\r' ∉ (splitLine (c :: t)).2 :=
          fun hmem => hreturn ((splitLine_suffix (c :: t)).subset hmem)
        rw [List.cons_append, htmlUntilBlank_cons, htmlUntilBlank_cons,
          ← List.cons_append, h]
        dsimp only
        generalize (splitLine (c :: t)).2 = next at hnext hplain ⊢
        have hinside := Container.inside_suffix cs next
        simp only [Container.allContinued_concat, Container.inside_concat,
          Cursor.rest_concat, Cursor.owed_concat, startsBlank_concat]
        split
        · exact .same _ (.concat next)
        · rename_i hstop
          have hrest : (Container.inside cs next).rest ≠ [] := by
            intro hrest
            rw [hrest] at hstop
            exact hstop (Bool.or_true _)
          have hlength := hinside.length_le
          refine .cons (htmlUntilBlank_concat cs _ _ hrest fun hmem => ?_) _
          exact hplain (hinside.subset hmem)
      · have hlast : (splitLine (c :: t)).2 = [] := by rw [h]
        have hlast' : (splitLine (c :: t ++ ['\n'])).2 = [] := by rw [h']
        rw [htmlUntilBlank_last cs owed hs hlast,
          htmlUntilBlank_last cs owed (by simp) hlast', h, h']
        exact .lastLine cs owed hreturn
termination_by s => s.length
decreasing_by
  rw [List.length_cons] at hnext ⊢
  omega

end Leaf

/-! ## Blocks -/

/-- The block with more text behind its literal. -/
def Block.extend (w : Text) : Block → Block
  | .code info literal => .code info (literal ++ w)
  | .html literal => .html (literal ++ w)

/-- What two readings of a block come to: the same block, if it is kept, with the
line feed still to come, or the last block of the text, which then has more
blanks at its end. -/
inductive SameBlock :
    Option Leaf × State × Text → Option Leaf × State × Text → Prop where
  | same (leaf? : Option Leaf) (st : State) {rest rest' : Text}
    (h : Longer rest rest') : SameBlock (leaf?, st, rest) (leaf?, st, rest')
  | last {leaf leaf' : Leaf} (st st' : State) {rest w : Text} (hw : Blanks w)
    (hleaf : leaf'.block = leaf.block.extend w) (hrest : Drained st.containers rest) :
    SameBlock (some leaf, st, rest) (some leaf', st', [])

theorem infoString_concat (line : Text) :
    infoString (line ++ ['\n']) = infoString line := by
  rw [infoString, infoString, dropWhile_concat (by decide), List.reverse_append]
  rfl

theorem fence?_mark {s : Text} {mark : Char} {width : Nat}
    (h : fence? s = some (mark, width)) : mark ≠ '\n' ∧ width ≤ s.length := by
  rcases s with _ | ⟨c, s⟩
  · cases h
  have hle := runLength_le c (c :: s)
  rw [fence?] at h
  split at h
  · rename_i hc
    cases h
    refine ⟨?_, hle⟩
    rintro rfl
    simp at hc
  · split at h
    · rename_i hc
      cases h
      refine ⟨?_, hle⟩
      rintro rfl
      simp at hc
    · cases h

theorem htmlBlock?_concat (cs : List Container) (indent : Nat) {s : Text}
    (hreturn : '\r' ∉ s) :
    Option.Rel (Leaf.Extends cs) (leafBlock.htmlBlock? cs indent s)
      (leafBlock.htmlBlock? cs indent (s ++ ['\n'])) := by
  rcases s with _ | ⟨c, s⟩
  · exact .none
  by_cases hc : c = '<'
  · rw [hc] at hreturn ⊢
    simp only [List.cons_append, leafBlock.htmlBlock?]
    rw [Html.closing?_concat, Html.startsBlockElement_concat, Html.startsLoneTag_concat]
    cases Html.closing? s with
    | some closing =>
        exact .some (Leaf.htmlUntil_concat cs closing indent ('<' :: s) (by simp) hreturn)
    | none =>
        dsimp only
        split
        · exact .some (Leaf.htmlUntilBlank_concat cs indent ('<' :: s) (by simp) hreturn)
        · exact .none
  · simp [leafBlock.htmlBlock?, hc]

/-- The lines that were read, as a block of either kind. -/
theorem SameBlock.of_extends {read read' : List Text × Text} (st : State)
    (leaf : List Text → Leaf)
    (hleaf : ∀ lines lines' w, lines'.flatten = lines.flatten ++ w →
      (leaf lines').block = (leaf lines).block.extend w)
    (h : Leaf.Extends st.containers read read') :
    SameBlock (some (leaf read.1), st, read.2) (some (leaf read'.1), st, read'.2) := by
  cases h with
  | same lines h => exact .same _ st h
  | last hw hlines hrest => exact .last st st hw (hleaf _ _ _ hlines) hrest

theorem SameBlock.of_extendsIndented {read read' : List (Bool × Text) × Text}
    (st : State) (h : Leaf.ExtendsIndented st.containers read read') :
    SameBlock
      (some (.code none (Leaf.dropBlankEnd read.1)),
        { st with lastBlank := Leaf.endsBlank read.1 }, read.2)
      (some (.code none (Leaf.dropBlankEnd read'.1)),
        { st with lastBlank := Leaf.endsBlank read'.1 }, read'.2) := by
  cases h with
  | same lines rest => exact .same _ _ (.concat rest)
  | last front blank line =>
      obtain ⟨w, hw, hflatten⟩ := Leaf.flatten_dropBlankEnd_last front blank line
      refine .last _ _ hw ?_ (.nil _)
      rw [Leaf.block, hflatten]
      rfl
  | blank lines line hrest =>
      refine .last _ _ .nil ?_ hrest
      rw [Leaf.dropBlankEnd_blank, Leaf.block, Block.extend, List.append_nil]

/-- The fence is on the first line, so the line feed stands behind the body or is
what ends the line of the fence. -/
theorem SameBlock.of_fence (st : State) {s : Text} (hreturn : '\r' ∉ s) {mark : Char}
    {width : Nat} (h : fence? s = some (mark, width)) (indent : Nat) :
    SameBlock
      (some (.code (some (infoString (splitLine (s.drop width)).1))
          (Leaf.fenced st.containers mark width indent (splitLine (s.drop width)).2).1),
        st, (Leaf.fenced st.containers mark width indent (splitLine (s.drop width)).2).2)
      (some (.code (some (infoString (splitLine ((s ++ ['\n']).drop width)).1))
          (Leaf.fenced st.containers mark width indent
            (splitLine ((s ++ ['\n']).drop width)).2).1),
        st, (Leaf.fenced st.containers mark width indent
          (splitLine ((s ++ ['\n']).drop width)).2).2) := by
  obtain ⟨hmark, hwidth⟩ := fence?_mark h
  have hplain : '\r' ∉ (splitLine (s.drop width)).2 := fun hmem =>
    hreturn (((splitLine_suffix _).trans (List.drop_suffix width s)).subset hmem)
  rw [List.drop_append_of_le_length hwidth]
  rcases splitLine_concat (s.drop width) with ⟨-, hsplit⟩ | ⟨-, hsplit, hsplit'⟩
  · rw [hsplit]
    refine .of_extends st _ ?_
      (Leaf.fenced_concat st.containers hmark width indent _ hplain)
    intro lines lines' w hw
    rw [Leaf.block, hw]
    rfl
  · rw [hsplit, hsplit', infoString_concat]
    dsimp only
    rw [Leaf.fenced_nil]
    exact .same _ st .nil

/-- A text that skipping columns uses up is a blank line. -/
theorem afterBlankLine?_of_skip {cur : Cursor} {n : Nat}
    (h : (cur.skip n).2.rest = []) : afterBlankLine? cur.rest = some [] := by
  have hspacing : ∀ c ∈ cur.rest, isInlineSpacing c = true := by
    intro c hc
    rcases Cursor.blanks_of_skip h c hc with rfl | rfl <;> decide
  rw [afterBlankLine?, ← List.append_nil cur.rest,
    List.dropWhile_append_of_pos hspacing]
  rfl

/-- The block that begins here if it is neither indented code nor raw HTML. -/
def plainBlock (st : State) (indent : Nat) (s : Text) : Option Leaf × State × Text :=
  match afterThematicBreak? s with
  | some rest => (none, st, rest)
  | none =>
    match afterHeadingMarks? s with
    | some rest => (none, st, dropProseLine rest)
    | none =>
      match fence? s with
      | some (mark, width) =>
        let (info, body) := splitLine (s.drop width)
        let (lines, rest) := Leaf.fenced st.containers mark width indent body
        (some (.code (some (infoString info)) lines), st, rest)
      | none => (none, st, afterDefinitions st.containers s)

theorem plainBlock_concat (st : State) (indent : Nat) {s : Text}
    (hreturn : '\r' ∉ s) :
    SameBlock (plainBlock st indent s) (plainBlock st indent (s ++ ['\n'])) := by
  unfold plainBlock
  have hrule := afterThematicBreak?_concat s
  generalize afterThematicBreak? s = rule at hrule ⊢
  generalize afterThematicBreak? (s ++ ['\n']) = rule' at hrule ⊢
  cases hrule with
  | some h => exact .same none st h
  | none =>
      dsimp only
      rw [afterHeadingMarks?_concat, fence?_concat]
      cases afterHeadingMarks? s with
      | some rest => exact .same none st (dropProseLine_concat rest)
      | none =>
          cases hfence : fence? s with
          | some fence => exact .of_fence st hreturn hfence indent
          | none => exact .same none st (afterDefinitions_concat _ s)

theorem leafBlock_concat (st : State) {cur : Cursor} (hreturn : '\r' ∉ cur.rest) :
    SameBlock (leafBlock st cur) (leafBlock st cur.concat) := by
  have hblank := afterBlankLine?_concat cur.rest
  unfold leafBlock
  rw [Cursor.rest_concat]
  cases hb : afterBlankLine? cur.rest with
  | some next =>
      rw [hb] at hblank
      generalize afterBlankLine? (cur.rest ++ ['\n']) = next' at hblank ⊢
      cases hblank with
      | some h => exact .same none _ h
  | none =>
      rw [hb] at hblank
      generalize afterBlankLine? (cur.rest ++ ['\n']) = next' at hblank ⊢
      cases hblank
      have hsuffix : (cur.indent 4).2.rest <:+ cur.rest := Cursor.skip_suffix 4 cur
      have hne : (cur.indent 4).2.rest ≠ [] := by
        intro hnil
        cases hb.symm.trans (afterBlankLine?_of_skip hnil)
      have hplain : '\r' ∉ (cur.indent 4).2.rest := fun h => hreturn (hsuffix.subset h)
      dsimp only
      rw [Cursor.indent_concat]
      dsimp only [Cursor.rest_concat, Cursor.owed_concat]
      generalize (cur.indent 4).2.rest = s at hne hplain ⊢
      split
      · exact .of_extendsIndented st.finishList
          (Leaf.indented_concat _ false (cur.indent 4).2.owed s hne hplain)
      · have hhtml := htmlBlock?_concat st.finishList.containers (cur.indent 4).1 hplain
        generalize leafBlock.htmlBlock? _ _ s = read at hhtml ⊢
        generalize leafBlock.htmlBlock? _ _ (s ++ ['\n']) = read' at hhtml ⊢
        cases hhtml with
        | some h =>
            refine .of_extends _ .html ?_ h
            intro lines lines' w hw
            rw [Leaf.block, hw]
            rfl
        | none =>
            exact plainBlock_concat st.finishList (cur.indent 4).1 hplain

theorem nextBlock_concat (st : State) {line : Text} (hreturn : '\r' ∉ line) :
    SameBlock (nextBlock st line) (nextBlock st (line ++ ['\n'])) := by
  unfold nextBlock
  rw [Cursor.start_concat, Container.continued_concat]
  dsimp only
  have hcur : (Container.continued st.containers (.start line)).2.rest <:+ line :=
    Container.inside_suffix st.containers line
  generalize (Container.continued st.containers (.start line)).2 = cur at hcur ⊢
  generalize st.popTo _ = st'
  have htext := (Opened.text_ofLine_suffix st' cur).trans hcur
  have hopened := Opened.ofLine_concat st' cur
  generalize Opened.ofLine st' cur = opened at htext hopened ⊢
  generalize Opened.ofLine st' cur.concat = opened' at hopened ⊢
  cases hopened with
  | leaf st cur => exact leafBlock_concat st fun h => hreturn (htext.subset h)
  | @empty st cur h =>
      have hblank : afterBlankLine? [] = some [] := rfl
      dsimp only
      rw [leafBlock, h, hblank]
      exact .same none _ .nil
  | prose st s => exact .same none st (Paragraph.after_concat st.containers s)
  | nothing st h => exact .same none st h

/-- A line that only has blanks behind its containers is the last one and holds
no block. -/
theorem nextBlock_of_drained {st : State} {line : Text}
    (h : Drained st.containers line) :
    ∃ st', nextBlock st line = (none, st', []) := by
  have hahead : ((Container.continued st.containers (.start line)).2.indent 4).2.rest =
      [] := h
  unfold nextBlock
  dsimp only
  generalize (Container.continued st.containers (.start line)).2 = cur at hahead ⊢
  generalize st.popTo _ = st'
  have hopened : Opened.ofLine st' cur = .leaf st' cur := by
    have hmark : afterFootnoteMark? [] = none := rfl
    have hitem : Opened.listItem? (cur.indent 4).1 (cur.indent 4).2 = none := by
      rw [Opened.listItem?, hahead]
    have hquote : (cur.indent 4).2.char? '>' = none := by
      rw [Cursor.char?, hahead]
    rw [Opened.ofLine_eq, hitem, hquote, hahead, hmark]
    exact ite_self _
  refine ⟨st'.noteBlank, ?_⟩
  rw [hopened]
  dsimp only
  rw [leafBlock, afterBlankLine?_of_skip hahead]

theorem leaves_of_drained {st : State} {line : Text} (h : Drained st.containers line) :
    leaves st line = [] := by
  cases line with
  | nil => exact leaves_nil st
  | cons c t =>
      obtain ⟨st', hnext⟩ := nextBlock_of_drained h
      rw [leaves_of_nextBlock hnext, leaves_nil]
      rfl

theorem Block.extend_nil : Block.extend [] = id := by
  funext block
  cases block <;> simp [extend]

theorem modifyLast_id {α : Type} (l : List α) : l.modifyLast id = l := by
  rcases List.eq_nil_or_concat l with rfl | ⟨l, a, rfl⟩
  · rfl
  · rw [List.concat_eq_append, List.modifyLast_concat]
    rfl

/-- A line feed alone holds no block. -/
theorem leaves_lineFeed_last (st : State) : leaves st ['\n'] = [] := by
  obtain ⟨st', hnext⟩ := nextBlock_of_drained (.nil st.containers)
  have hsame := nextBlock_concat st List.not_mem_nil
  have hlength := nextBlock_length_le st ['\n']
  rw [hnext, List.nil_append] at hsame
  generalize hfeed : nextBlock st ['\n'] = read at hsame hlength
  cases hsame with
  | @same _ _ _ rest' h =>
      have hrest : rest' = [] := List.eq_nil_of_length_eq_zero (Nat.le_zero.1 hlength)
      rw [leaves_of_nextBlock hfeed, hrest, leaves_nil]
      rfl

theorem modifyLast_append {front rest rest' : List Block}
    (h : ∃ w, Blanks w ∧ rest' = rest.modifyLast (Block.extend w)) :
    ∃ w, Blanks w ∧ front ++ rest' = (front ++ rest).modifyLast (Block.extend w) := by
  obtain ⟨w, hw, rfl⟩ := h
  by_cases hrest : rest = []
  · refine ⟨[], .nil, ?_⟩
    rw [hrest, Block.extend_nil, modifyLast_id]
    rfl
  · exact ⟨w, hw, (List.modifyLast_append_of_right_ne_nil _ _ _ hrest).symm⟩

/-- The blocks of a text, and those of the text with a line feed behind it: all
but the last one are the same, and that one may have more blanks at its end. -/
theorem leaves_concat (st : State) : ∀ s : Text, '\r' ∉ s →
    ∃ w, Blanks w ∧ (leaves st (s ++ ['\n'])).map Leaf.block =
      ((leaves st s).map Leaf.block).modifyLast (Block.extend w)
  | [], _ => by
      refine ⟨[], .nil, ?_⟩
      rw [List.nil_append, leaves_lineFeed_last, leaves_nil]
      rfl
  | c :: t, hreturn => by
      have hsame := nextBlock_concat st hreturn
      have hplain : '\r' ∉ (nextBlock st (c :: t)).2.2 :=
        fun hmem => hreturn ((nextBlock_suffix st (c :: t)).subset hmem)
      have hlength := nextBlock_length_le st (c :: t)
      generalize hread : nextBlock st (c :: t) = read at hsame hplain hlength
      generalize hread' : nextBlock st (c :: t ++ ['\n']) = read' at hsame
      cases hsame with
      | @same leaf? st' rest rest' h =>
          have hleaves' : leaves st (c :: t ++ ['\n']) =
              leaf?.toList ++ leaves st' rest' := leaves_of_nextBlock hread'
          rw [leaves_of_nextBlock hread, hleaves', List.map_append, List.map_append]
          refine modifyLast_append ?_
          rcases h with rfl | ⟨rfl, rfl⟩
          · exact leaves_concat st' rest hplain
          · refine ⟨[], .nil, ?_⟩
            rw [Block.extend_nil, modifyLast_id]
      | @last leaf leaf' st' st'' rest w hw hleaf hrest =>
          have hleaves' : leaves st (c :: t ++ ['\n']) = [leaf'] ++ leaves st'' [] :=
            leaves_of_nextBlock hread'
          refine ⟨w, hw, ?_⟩
          rw [leaves_of_nextBlock hread, leaves_of_drained hrest, hleaves', leaves_nil]
          simp only [List.append_nil, Option.toList_some, List.map_cons, List.map_nil]
          rw [hleaf]
          exact (List.modifyLast_concat _ _ []).symm
termination_by s => s.length
decreasing_by exact Nat.lt_succ_of_le hlength

/-- A line feed at the end of a document at most puts blanks behind its last
block. -/
theorem parseBlocks_concat {s : Text} (hreturn : '\r' ∉ s) :
    ∃ w, Blanks w ∧
      parseBlocks (s ++ ['\n']) = (parseBlocks s).modifyLast (Block.extend w) := by
  rw [parseBlocks_eq_map, parseBlocks_eq_map]
  exact leaves_concat .initial s hreturn

end Tangle.Markdown
