import Tangle.Proofs.CommentReading
import Tangle.Proofs.Marks

/-!
# What the parser makes of a list of marks

The first mark of a text decides what happens. A block is a leaf of its own. A
closing delimiter, together with all those that follow it, is a paragraph, so
nothing is found there and nothing behind it is lost (`leaves_closing_marks`).
An opening delimiter takes everything up to the next closing one, or the whole
rest if there is none, and what it has taken is a list of marks again
(`leaves_opening_marks`).
-/

namespace Tangle

open Markdown (leaves State EndsLine)
open Markdown.Leaf (ReadsComment)

/-! ## Lines inside a comment -/

/-- A line at which no comment ends. -/
def Passed (line : Text) : Prop :=
  '\r' ∉ line ∧ '\n' ∉ line ∧ Comment.closing.occursIn line = false

theorem readsComment_unlines {lines : List Text}
    (hlines : ∀ line ∈ lines, Passed line)
    {s kept rest : Text} (h : ReadsComment s kept rest) :
    ReadsComment (unlines lines ++ s) (unlines lines ++ kept) rest := by
  induction lines with
  | nil => exact h
  | cons line lines ih =>
      obtain ⟨hreturn, hfeed, hclosing⟩ := hlines line (List.mem_cons_self ..)
      have hrest := ih fun l hl => hlines l (List.mem_cons_of_mem line hl)
      have hunlines (t : Text) : unlines (line :: lines) ++ t =
          line ++ '\n' :: (unlines lines ++ t) := by
        simp [unlines]
      rw [hunlines, hunlines]
      exact .line hreturn hfeed hclosing hrest

namespace Fence

variable (fence : Fence)

theorem passed_mark : Passed fence.mark := by
  have hmem {c : Char} (hc : c ≠ '`') : c ∉ fence.mark :=
    fun h => hc (List.eq_of_mem_replicate h)
  have hclosing := closing_occursIn_replicate fence.width []
  rw [List.append_nil] at hclosing
  exact ⟨hmem (by decide), hmem (by decide), hclosing⟩

theorem passed_mark_append_info : Passed (fence.mark ++ fence.info) := by
  have hmark := fence.passed_mark
  refine ⟨?_, ?_, ?_⟩
  · intro hmem
    rcases List.mem_append.1 hmem with hmem | hmem
    · exact hmark.1 hmem
    · exact fence.not_mem_info (by decide) (by decide) hmem
  · intro hmem
    rcases List.mem_append.1 hmem with hmem | hmem
    · exact hmark.2.1 hmem
    · exact fence.not_mem_info (by decide) (by decide) hmem
  · rw [mark, closing_occursIn_replicate]
    exact closing_occursIn_intercalate_space fence.tags_closing

theorem passed_lines : ∀ line ∈ fence.lines, Passed line := by
  intro line hline
  obtain ⟨hreturn, hfeed, -⟩ := fence.lines_plain line hline
  exact ⟨hreturn, hfeed, fence.lines_closing line hline⟩

end Fence

namespace Mark

/-- No comment ends at the lines of a mark, except at a closing delimiter. -/
theorem exists_passed {m : Mark} (hm : m ≠ closing) :
    ∃ lines last blank, (∀ line ∈ lines ++ last :: blank, Passed line) ∧
      m.core = unlines lines ++ last ∧ m.ending = '\n' :: unlines blank := by
  cases m with
  | block fence =>
      refine ⟨(fence.mark ++ fence.info) :: fence.lines, fence.mark, [[]], ?_,
        rfl, rfl⟩
      intro line hline
      rcases List.mem_append.1 hline with hline | hline
      · rcases List.mem_cons.1 hline with rfl | hline
        · exact fence.passed_mark_append_info
        · exact fence.passed_lines line hline
      · rcases List.mem_cons.1 hline with rfl | hline
        · exact fence.passed_mark
        · rw [List.mem_singleton.1 hline]
          exact ⟨List.not_mem_nil, List.not_mem_nil, rfl⟩
  | opening =>
      refine ⟨[], Comment.opening, [], ?_, rfl, rfl⟩
      intro line hline
      rw [List.mem_singleton.1 hline]
      exact ⟨by decide, by decide, by decide⟩
  | closing => exact absurd rfl hm

theorem readsComment_cons {m : Mark} (hm : m ≠ closing) {s kept rest : Text}
    (h : ReadsComment s kept rest) :
    ReadsComment (m.core ++ m.ending ++ s) (m.core ++ m.ending ++ kept) rest := by
  obtain ⟨lines, last, blank, hpassed, hcore, hending⟩ := exists_passed hm
  have hall (t : Text) : m.core ++ m.ending ++ t =
      unlines (lines ++ last :: blank) ++ t := by
    simp [hcore, hending, unlines]
  rw [hall, hall]
  exact readsComment_unlines hpassed h

theorem readsComment_last (m : Mark) : ReadsComment m.core m.core [] := by
  by_cases hm : m = closing
  · rw [hm]
    exact .last (by decide) (by decide)
  · obtain ⟨lines, last, blank, hpassed, hcore, -⟩ := exists_passed hm
    have hlast := hpassed last (by simp)
    rw [hcore]
    refine readsComment_unlines (fun line hline => ?_) (.last hlast.1 hlast.2.1)
    exact hpassed line (List.mem_append_left _ hline)

namespace Writes

/-- A comment without an end takes the whole text. -/
theorem readsComment {marks : List Mark} {s : Text} (h : Writes marks s)
    (hclosing : closing ∉ marks) : ReadsComment s s [] := by
  induction h with
  | nil => exact .nil
  | last m => exact m.readsComment_last
  | @cons marks s m rest ih =>
      have hm : m ≠ closing := Ne.symm (List.ne_of_not_mem_cons hclosing)
      exact readsComment_cons hm (ih (List.not_mem_of_not_mem_cons hclosing))

/-- Another one ends at the first closing delimiter. -/
theorem readsComment_append {marks : List Mark} (hclosing : closing ∉ marks)
    {marks' : List Mark} : ∀ {s : Text}, Writes (marks ++ closing :: marks') s →
    ∃ ending next, (∀ c ∈ ending, isBlank c = true) ∧ Writes marks' next ∧
      ReadsComment s (written marks ++ (Comment.closing ++ ending)) next := by
  induction marks with
  | nil =>
      intro s h
      cases h with
      | last => exact ⟨[], [], nofun, .nil, readsComment_last closing⟩
      | @cons _ s _ rest =>
          exact ⟨['\n'], s, List.forall_mem_singleton.2 rfl, rest, .closing s⟩
  | cons m marks ih =>
      intro s h
      have hm : m ≠ closing := Ne.symm (List.ne_of_not_mem_cons hclosing)
      have hrest : closing ∉ marks := List.not_mem_of_not_mem_cons hclosing
      generalize hall : marks ++ closing :: marks' = all at h ih
      rw [List.cons_append, hall] at h
      cases h with
      | last => exact absurd hall (by simp)
      | @cons _ s _ rest =>
          obtain ⟨ending, next, hending, hnext, hreads⟩ := ih hrest rest
          refine ⟨ending, next, hending, hnext, ?_⟩
          rw [written_cons, List.append_assoc (m.core ++ m.ending)]
          exact readsComment_cons hm hreads

end Writes

/-! ## The interior of a comment -/

/-- The interior of a comment that holds these marks. -/
def Enclosed (marks : List Mark) (interior : Text) : Prop :=
  marks = [] ∧ interior = [] ∨ ∃ s, interior = '\n' :: s ∧ Writes marks s

theorem enclosed_written (marks : List Mark) :
    Enclosed marks ('\n' :: written marks) :=
  Or.inr ⟨written marks, rfl, writes_written marks⟩

/-- Of a comment with an end both delimiters are taken off. -/
theorem interior?_closed (marks : List Mark) {ending : Text}
    (hending : ∀ c ∈ ending, isBlank c = true) :
    Comment.interior? (written (opening :: marks) ++ (Comment.closing ++ ending)) =
      some ('\n' :: written marks) := by
  have hsplit : written (opening :: marks) ++ (Comment.closing ++ ending) =
      [] ++ Comment.opening ++ ('\n' :: written marks) ++ Comment.closing ++ ending := by
    simp [core, Mark.ending]
  rw [hsplit, Comment.interior?_enclosed (List.forall_mem_nil _) hending]

theorem Writes.exists_enclosed {marks : List Mark} {s : Text}
    (h : Writes (opening :: marks) s) :
    ∃ interior, s = Comment.opening ++ interior ∧ Enclosed marks interior := by
  cases h with
  | last => exact ⟨[], rfl, Or.inl ⟨rfl, rfl⟩⟩
  | @cons _ t _ rest => exact ⟨'\n' :: t, rfl, Or.inr ⟨t, rfl, rest⟩⟩

/-- Of a comment without an end only the opening one is. -/
theorem exists_interior?_open {marks : List Mark} {s : Text}
    (h : Writes (opening :: marks) s) (hclosing : closing ∉ marks) :
    ∃ interior, Comment.interior? s = some interior ∧
      Enclosed marks interior := by
  have hlast : s.trimEnd.getLast? ≠ some '>' :=
    h.trimEnd.getLast?_ne (List.not_mem_cons_of_ne_of_not_mem nofun hclosing)
  have htrim : s.trim = s.trimEnd := by
    obtain ⟨t, hs, -⟩ := h.exists_enclosed
    rw [hs, Comment.trim_opening]
  obtain ⟨interior, hbody, henclosed⟩ := h.trimEnd.exists_enclosed
  have hdrop : Text.dropSuffix? Comment.closing interior = none := by
    rw [Text.dropSuffix?_eq_none_iff]
    rintro ⟨r, rfl⟩
    refine hlast ?_
    rw [hbody, Comment.closing, ← List.append_assoc, List.getLast?_append]
    rfl
  refine ⟨interior, ?_, henclosed⟩
  rw [Comment.interior?_of_opening (htrim.trans hbody), hdrop, Option.getD_none]

/-! ## The leaves of a text -/

/-- A mark other than a block stands alone on its line. -/
theorem Writes.exists_endsLine {m : Mark} (hm : m.ending = ['\n'])
    {marks : List Mark}
    {s : Text} (h : Writes (m :: marks) s) :
    ∃ t next, s = m.core ++ t ∧ EndsLine t next ∧ Writes marks next := by
  cases h with
  | last => exact ⟨[], [], (List.append_nil _).symm, Or.inl ⟨rfl, rfl⟩, .nil⟩
  | @cons _ t _ rest =>
      refine ⟨'\n' :: t, t, ?_, Or.inr rfl, rest⟩
      rw [hm, List.append_assoc, List.singleton_append]

theorem leaves_block_marks {fence : Fence} {marks : List Mark} {s : Text}
    (h : Writes (block fence :: marks) s) {st : State} (hst : st.containers = []) :
    ∃ st' s', leaves st s = fence.leaf :: leaves st' s' ∧ st'.containers = [] ∧
      Writes marks s' := by
  have hclosed := Markdown.State.containers_finishList hst
  cases h with
  | last =>
      have hleaves := fence.leaves_core hst (Or.inl ⟨rfl, rfl⟩)
      rw [List.append_nil] at hleaves
      exact ⟨st.finishList, [], hleaves, hclosed, .nil⟩
  | @cons _ t _ rest =>
      obtain ⟨st', hblank, hst'⟩ := Markdown.leaves_lineFeed hclosed t
      have hends : EndsLine ('\n' :: '\n' :: t) ('\n' :: t) := Or.inr rfl
      have hleaves := fence.leaves_core hst hends
      refine ⟨st', t, ?_, hst', rest⟩
      rw [core, List.append_assoc, ← hblank, ← hleaves]
      rfl

/-- The comment is one leaf, and what it does not take is left to be read. -/
theorem leaves_opening_marks {marks : List Mark} {s : Text}
    (h : Writes (opening :: marks) s) {st : State} (hst : st.containers = []) :
    ∃ lines interior s' within behind,
      leaves st s = .html lines :: leaves st.finishList s' ∧
      Comment.interior? lines.flatten = some interior ∧
      Enclosed within interior ∧ closing ∉ within ∧ Writes behind s' ∧
      (marks = within ∧ behind = [] ∨ marks = within ++ closing :: behind) := by
  by_cases hclosing : closing ∈ marks
  · obtain ⟨within, behind, rfl, hwithin⟩ := List.eq_append_cons_of_mem hclosing
    have hnot : closing ∉ opening :: within :=
      List.not_mem_cons_of_ne_of_not_mem nofun hwithin
    obtain ⟨ending, next, hending, hnext, hreads⟩ :=
      Writes.readsComment_append hnot h
    obtain ⟨t, hs, -⟩ := h.exists_enclosed
    rw [hs] at hreads ⊢
    obtain ⟨lines, hlines, hleaves⟩ := Markdown.leaves_opening hst hreads
    refine ⟨lines, '\n' :: written within, next, within, behind, hleaves, ?_,
      enclosed_written within, hwithin, hnext, Or.inr rfl⟩
    rw [hlines, interior?_closed within hending]
  · have hnot : closing ∉ opening :: marks :=
      List.not_mem_cons_of_ne_of_not_mem nofun hclosing
    obtain ⟨interior, hinterior, henclosed⟩ := exists_interior?_open h hclosing
    have hreads := h.readsComment hnot
    obtain ⟨t, hs, -⟩ := h.exists_enclosed
    rw [hs] at hreads ⊢
    obtain ⟨lines, hlines, hleaves⟩ := Markdown.leaves_opening hst hreads
    refine ⟨lines, interior, [], marks, [], hleaves, ?_, henclosed, hclosing, .nil,
      Or.inl ⟨rfl, rfl⟩⟩
    rw [hlines, ← hs, hinterior]

theorem afterLines_block (fence : Fence) (t : Text) :
    Markdown.Paragraph.afterLines []
        (Comment.closing ++ '\n' :: (fence.core ++ t)) =
      fence.core ++ t := by
  have hfence := fence.fence?_core t
  obtain ⟨s, hcore⟩ := fence.core_eq_cons t
  rw [hcore] at hfence ⊢
  refine Markdown.Paragraph.afterLines_interrupted (by decide) ?_ ?_
  · simp [Markdown.afterUnderline?]
  · simp [Markdown.blockInterrupts, hfence]

theorem afterLines_opening (t : Text) :
    Markdown.Paragraph.afterLines []
        (Comment.closing ++ '\n' :: (Comment.opening ++ t)) =
      Comment.opening ++ t := by
  rw [Comment.opening, List.cons_append]
  refine Markdown.Paragraph.afterLines_interrupted (by decide) ?_ ?_
  · simp [Markdown.afterUnderline?]
  · simp [Markdown.blockInterrupts, Markdown.Html.interrupts,
      Markdown.closing?_opening]

/-- The closing delimiters that follow one another are one paragraph. -/
theorem exists_afterLines {marks : List Mark} :
    ∀ {s : Text}, Writes (closing :: marks) s →
    ∃ n marks', marks = List.replicate n closing ++ marks' ∧
      Writes marks' (Markdown.Paragraph.afterLines [] s) := by
  induction marks with
  | nil =>
      intro s h
      obtain ⟨t, next, hs, ht, hnext⟩ := h.exists_endsLine rfl
      rw [hnext.eq_nil] at ht
      refine ⟨0, [], rfl, ?_⟩
      rw [hs, core, Markdown.Paragraph.afterLines_end ht]
      exact .nil
  | cons m marks ih =>
      intro s h
      obtain ⟨t, next, hs, ht, hnext⟩ := h.exists_endsLine rfl
      have hline : t = '\n' :: next := by
        rcases ht with ⟨-, hnil⟩ | ht
        · exact absurd hnil hnext.ne_nil
        · exact ht
      rw [hs, hline, core]
      cases m with
      | block fence =>
          refine ⟨0, block fence :: marks, rfl, ?_⟩
          have hcore : ∃ u, next = fence.core ++ u := by
            cases hnext with
            | last => exact ⟨[], (List.append_nil _).symm⟩
            | @cons _ u _ _ => exact ⟨_, List.append_assoc ..⟩
          obtain ⟨u, rfl⟩ := hcore
          rwa [afterLines_block]
      | opening =>
          refine ⟨0, opening :: marks, rfl, ?_⟩
          obtain ⟨u, rfl, -⟩ := hnext.exists_enclosed
          rwa [afterLines_opening]
      | closing =>
          obtain ⟨n, marks', hmarks, hrest⟩ := ih hnext
          refine ⟨n + 1, marks', ?_, ?_⟩
          · rw [hmarks, List.replicate_succ, List.cons_append]
          · obtain ⟨u, _, rfl, -, -⟩ := hnext.exists_endsLine rfl
            rwa [core, Markdown.Paragraph.afterLines_closing]

/-- Nothing is found at closing delimiters that close nothing. -/
theorem leaves_closing_marks {marks : List Mark} {s : Text}
    (h : Writes (closing :: marks) s) {st : State} (hst : st.containers = []) :
    ∃ s' n marks', leaves st s = leaves st.finishList s' ∧
      marks = List.replicate n closing ++ marks' ∧ Writes marks' s' := by
  obtain ⟨n, marks', hmarks, hrest⟩ := exists_afterLines h
  refine ⟨_, n, marks', ?_, hmarks, hrest⟩
  obtain ⟨t, next, rfl, ht, -⟩ := h.exists_endsLine rfl
  exact Markdown.leaves_closing hst ht

end Mark

end Tangle
