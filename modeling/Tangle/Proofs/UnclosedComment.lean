import Tangle.Proofs.Interior
import Tangle.Proofs.CommentReading
import Tangle.Proofs.LastBlock
import Tangle.Proofs.Limits

/-!
# What a comment without an end keeps of a document

An opening delimiter on a line of its own makes the whole document behind it one
block of raw HTML, if nothing closes it. What the walk then reads is the
interior: the trimmed literal without the delimiter. The line feed behind the
delimiter is a blank line in front of the document, which the parser passes over,
and how deep a block lies does not matter without a limit. So the walk is that of
the document without the blanks at its end (`walk_opening`).

Those blanks are not always nothing to the document. If they are line feeds,
`parseBlocks_concat` says what they are to it: blanks at the end of its last
block, and only if that is a code block do they show. That is all an unclosed
comment can lose of such a document, and it does lose it.
-/

namespace Tangle

open Markdown (Block Blanks parseBlocks)

namespace Markdown

/-! ## A document behind a line feed -/

/-- What a line opens outside all containers does not depend on whether a blank
line stands in front of it. -/
theorem Opened.ofLine_behindBlank (cur : Cursor) :
    ofLine ⟨[], false, true⟩ cur = .leaf ⟨[], false, true⟩ cur ∧
        ofLine .initial cur = .leaf .initial cur ∨
      ofLine ⟨[], false, true⟩ cur = ofLine .initial cur := by
  rw [ofLine_eq, ofLine_eq .initial]
  by_cases hindent : (cur.indent 4).1 = 4
  · rw [if_pos hindent, if_pos hindent]
    exact Or.inl ⟨rfl, rfl⟩
  · rw [if_neg hindent, if_neg hindent]
    -- The states differ in the blank line alone, and opening a container forgets it.
    cases afterFootnoteMark? (cur.indent 4).2.rest with
    | some s => exact Or.inr rfl
    | none =>
        cases listItem? (cur.indent 4).1 (cur.indent 4).2 with
        | some item => exact Or.inr rfl
        | none =>
            cases (cur.indent 4).2.char? '>' with
            | some inner => exact Or.inr rfl
            | none => exact Or.inl ⟨rfl, rfl⟩

theorem nextBlock_behindBlank (s : Text) :
    nextBlock ⟨[], false, true⟩ s = nextBlock .initial s := by
  rw [nextBlock_outside rfl, nextBlock_outside rfl]
  rcases Opened.ofLine_behindBlank (.start s) with ⟨h, h'⟩ | h
  · rw [h, h']
    rfl
  · rw [h]

/-- A blank line in front of a document is no part of it. -/
theorem parseBlocks_lineFeed (s : Text) : parseBlocks ('\n' :: s) = parseBlocks s := by
  have hblank : nextBlock .initial ('\n' :: s) = (none, ⟨[], false, true⟩, s) := by
    have hitem : Opened.listItem? 0 (.start ('\n' :: s)) = none := by
      simp [Opened.listItem?, Cursor.start, afterNumber?]
    rw [nextBlock_start rfl (by decide) (by decide) (by decide) (by decide) hitem]
    rfl
  have hleaves : leaves ⟨[], false, true⟩ s = leaves .initial s := by
    cases s with
    | nil => rw [leaves_nil, leaves_nil]
    | cons c s => rw [leaves, nextBlock_behindBlank, leaves]
  rw [parseBlocks_eq_map, parseBlocks_eq_map, leaves_of_nextBlock hblank, hleaves]
  rfl

/-! ## The block that an unclosed comment is -/

/-- The text with all its lines as raw HTML keeps them. -/
def unifyLines (s : Text) : Text :=
  match s with
  | [] => []
  | c :: t => unifyLineEnd (splitLine (c :: t)).1 ++ unifyLines (splitLine (c :: t)).2
termination_by s.length
decreasing_by
  have h := splitLine_length_le (c :: t)
  rw [List.length_cons] at h ⊢
  omega

theorem unifyLines_eq_self {s : Text} (hreturn : '\r' ∉ s) : unifyLines s = s := by
  fun_induction unifyLines s with
  | case1 => rfl
  | case2 c t ih =>
      have hsplit := splitLine_append (c :: t)
      rw [← hsplit, List.mem_append, not_or] at hreturn
      rw [unifyLineEnd_of_not_mem hreturn.1, ih hreturn.2, hsplit]

/-- A text without a closing delimiter is part of the comment to its end. -/
theorem Leaf.ReadsComment.unclosed {s : Text}
    (hclosing : Comment.closing.occursIn s = false) :
    ReadsComment s (unifyLines s) [] := by
  fun_induction unifyLines s with
  | case1 => exact .nil
  | case2 c t ih =>
      have hprefix : (splitLine (c :: t)).1 <+: c :: t :=
        ⟨(splitLine (c :: t)).2, splitLine_append (c :: t)⟩
      have hline := occursIn_of_isInfix hclosing hprefix.isInfix
      obtain ⟨hkept, hrest⟩ :=
        ih (occursIn_of_isInfix hclosing (splitLine_suffix (c :: t)).isInfix)
      rw [ReadsComment, htmlUntil_eq _ (List.cons_ne_nil c t), hline, Bool.false_or]
      split
      · rename_i hempty
        rw [List.isEmpty_iff.1 hempty, unifyLines]
        simp [lineText, Text.spaces]
      · refine ⟨?_, hrest⟩
        rw [List.flatten_cons, hkept]
        rfl

theorem parseBlocks_opening {document : Text}
    (hclosing : Comment.closing.occursIn document = false) :
    parseBlocks (Comment.opening ++ '\n' :: document) =
      [.html (Comment.opening ++ '\n' :: unifyLines document)] := by
  have hreads : Leaf.ReadsComment (Comment.opening ++ '\n' :: document)
      (Comment.opening ++ '\n' :: unifyLines document) [] :=
    .line (by decide) (by decide) (by decide) (.unclosed hclosing)
  have hinitial : State.initial.containers = [] := rfl
  obtain ⟨lines, hlines, hleaves⟩ := leaves_opening hinitial hreads
  rw [parseBlocks_eq_map, hleaves, leaves_nil, List.map_singleton, Leaf.block, hlines]

end Markdown

namespace Comment

/-- What the walk reads of a document behind an opening delimiter that nothing
closes: the blanks at the end are gone, and behind them a closing delimiter that
a carriage return has kept apart. -/
def held (document : Text) : Text :=
  let kept := (Markdown.unifyLines document).trimEnd
  (Text.dropSuffix? closing kept).getD kept

theorem held_eq_trimEnd {document : Text}
    (hclosing : closing.occursIn document = false) (hreturn : '\r' ∉ document) :
    held document = document.trimEnd := by
  have hdrop : Text.dropSuffix? closing document.trimEnd = none := by
    rw [Text.dropSuffix?_eq_none_iff]
    intro hends
    have hnot := occursIn_of_isInfix hclosing (Text.trimEnd_isPrefix document).isInfix
    rw [occursIn_iff.2 hends.isInfix] at hnot
    cases hnot
  rw [held, Markdown.unifyLines_eq_self hreturn, hdrop, Option.getD_none]

theorem interior?_opening (document : Text) :
    ∃ interior,
      interior? (opening ++ '\n' :: Markdown.unifyLines document) = some interior ∧
        parseBlocks interior = parseBlocks (held document) := by
  rw [held]
  generalize Markdown.unifyLines document = kept
  by_cases hblank : kept.trimEnd = []
  · refine ⟨[], ?_, by rw [hblank]; rfl⟩
    have hfeed : ∀ c ∈ '\n' :: kept, isBlank c = true :=
      List.forall_mem_cons.2 ⟨by decide, Text.trimEnd_eq_nil_iff.1 hblank⟩
    have htrim : Text.trim (opening ++ '\n' :: kept) = opening ++ [] :=
      Text.trim_append hfeed
    exact interior?_of_opening htrim
  · have hfeed : Text.trimEnd ('\n' :: kept) = '\n' :: kept.trimEnd :=
      Text.trimEnd_append_of_ne_nil ['\n'] hblank
    have htrim : Text.trim (opening ++ '\n' :: kept) =
        opening ++ '\n' :: kept.trimEnd := by
      rw [trim_opening, Text.trimEnd_append_of_ne_nil _ (by simp [hfeed]), hfeed]
    refine ⟨_, interior?_of_opening htrim, ?_⟩
    rw [Text.dropSuffix?_cons (by decide)]
    cases Text.dropSuffix? closing kept.trimEnd with
    | none => exact Markdown.parseBlocks_lineFeed _
    | some front => exact Markdown.parseBlocks_lineFeed front

/-- Blanks behind a comment are not part of its interior. -/
theorem interior?_append {w : Text} (hw : Blanks w) (literal : Text) :
    interior? (literal ++ w) = interior? literal := by
  have hblank : ∀ c ∈ w, isBlank c = true := by
    intro c hc
    rcases hw c hc with rfl | rfl | rfl <;> decide
  rw [interior?, interior?, Text.trim_append hblank]

end Comment

/-- A code block with more text at its end. -/
def Visit.extend (w : Text) (visit : Visit) : Visit :=
  { visit with literal := visit.literal ++ w }

namespace Visit

theorem extend_nil : extend [] = id := by
  funext visit
  simp [extend]

theorem modifyLast_extend (visits : List Visit) (w w' : Text) :
    (visits.modifyLast (extend w)).modifyLast (extend w') =
      visits.modifyLast (extend (w ++ w')) := by
  rcases List.eq_nil_or_concat visits with rfl | ⟨front, last, rfl⟩
  · rfl
  · rw [List.concat_eq_append, List.modifyLast_concat, List.modifyLast_concat,
      List.modifyLast_concat]
    simp [extend]

end Visit

namespace Walker

/-- Without a limit it makes no difference how many comments enclose a block. -/
theorem DepthFirst.anyDepth {w : Walker} (hw : w.maxDepth = none) {depth : Nat}
    {blocks : List Block} {out : List Finding} (h : DepthFirst w depth blocks out) :
    ∀ depth', DepthFirst w depth' blocks out := by
  induction h with
  | done => exact .done
  | code info literal _ ih => exact fun depth' => .code info literal (ih depth')
  | excluded hexcluded _ ih => exact fun depth' => .excluded hexcluded (ih depth')
  | plain hi _ ih => exact fun depth' => .plain hi (ih depth')
  | tooDeep _ _ hm => cases hw.symm.trans hm
  | inside hincluded hi _ _ _ ihin ih =>
      intro depth'
      refine .inside hincluded hi (fun limit hm => ?_) (ihin (depth' + 1)) (ih depth')
      cases hw.symm.trans hm

theorem walk_opening {document : Text}
    (hclosing : Comment.closing.occursIn document = false) :
    walk {} (Comment.opening ++ '\n' :: document) = walk {} (Comment.held document) := by
  obtain ⟨interior, hi, hblocks⟩ := Comment.interior?_opening document
  have hlook : lookInside {} 1
      (Comment.opening ++ '\n' :: Markdown.unifyLines document) = .fragment interior :=
    lookInside_inside rfl hi nofun
  have hheld : DepthFirst {} 0 (parseBlocks (Comment.held document))
      (walk {} (Comment.held document)) := depthFirst_iff.2 (walk_eq_found ..)
  rw [walk_eq_found, Markdown.parseBlocks_opening hclosing, List.flatMap_singleton,
    found_of_fragment hlook, findings_eq_flatMap, hblocks]
  exact (depthFirst_iff.1 (hheld.anyDepth rfl 1)).symm

/-! ## Line feeds at the end of a document -/

theorem found_append {w : Text} (hw : Blanks w) (walker : Walker) (depth : Nat)
    (literal : Text) : walker.found depth (.html (literal ++ w)) =
      walker.found depth (.html literal) := by
  simp only [found, lookInside, Comment.interior?_append hw]

theorem visits_lineFeed (walker : Walker) {s : Text} (hreturn : '\r' ∉ s) :
    ∃ w, Blanks w ∧ visits (walker.walk (s ++ ['\n'])) =
      (visits (walker.walk s)).modifyLast (Visit.extend w) := by
  obtain ⟨w, hw, hblocks⟩ := Markdown.parseBlocks_concat hreturn
  rw [walk_eq_found, walk_eq_found, hblocks]
  rcases List.eq_nil_or_concat (parseBlocks s) with hnil | ⟨front, last, hlast⟩
  · rw [hnil]
    exact ⟨[], .nil, rfl⟩
  · rw [hlast, List.concat_eq_append, List.modifyLast_concat, List.flatMap_append,
      List.flatMap_append, visits_append, visits_append, List.flatMap_singleton,
      List.flatMap_singleton]
    cases last with
    | code info literal =>
        have hcode (literal : Text) : visits (walker.found 0 (.code info literal)) =
            [⟨parseTags info, literal⟩] := rfl
        refine ⟨w, hw, ?_⟩
        rw [Block.extend, hcode, hcode, List.modifyLast_concat]
        rfl
    | html literal =>
        refine ⟨[], .nil, ?_⟩
        rw [Block.extend, found_append hw, Visit.extend_nil, Markdown.modifyLast_id]

theorem visits_lineFeeds (walker : Walker) {s : Text} (hreturn : '\r' ∉ s)
    (feeds : Nat) :
    ∃ w, Blanks w ∧ visits (walker.walk (s ++ List.replicate feeds '\n')) =
      (visits (walker.walk s)).modifyLast (Visit.extend w) := by
  induction feeds with
  | zero =>
      refine ⟨[], .nil, ?_⟩
      rw [List.replicate_zero, List.append_nil, Visit.extend_nil,
        Markdown.modifyLast_id]
  | succ feeds ih =>
      obtain ⟨w, hw, hvisits⟩ := ih
      have hreturn' : '\r' ∉ s ++ List.replicate feeds '\n' := by
        simp [hreturn, List.mem_replicate]
      obtain ⟨w', hw', hvisits'⟩ := visits_lineFeed walker hreturn'
      refine ⟨w ++ w', hw.append hw', ?_⟩
      rw [List.replicate_succ', ← List.append_assoc, hvisits', hvisits,
        Visit.modifyLast_extend]

/-- An unclosed comment keeps its document up to the blanks at the end.

If no closing delimiter occurs in a document, the walk behind an opening
delimiter finds what it finds in the text that the comment holds. Without
carriage returns that is the document itself, trimmed at the end. If only line
feeds are trimmed there, the document has the same code blocks, in the same order
and with the same tags and literals, except that blanks may be missing at the end
of the last literal. -/
theorem walk_unclosed {document : Text}
    (hclosing : Comment.closing.occursIn document = false) :
    let unclosed := walk {} (Comment.opening ++ '\n' :: document)
    unclosed = walk {} (Comment.held document) ∧
    ('\r' ∉ document →
      unclosed = walk {} document.trimEnd ∧
      ∀ feeds, document = document.trimEnd ++ List.replicate feeds '\n' →
        ∃ w, Blanks w ∧
          visits (walk {} document) = (visits unclosed).modifyLast (Visit.extend w)) := by
  intro unclosed
  have hheld : unclosed = walk {} (Comment.held document) := walk_opening hclosing
  refine ⟨hheld, fun hreturn => ?_⟩
  rw [Comment.held_eq_trimEnd hclosing hreturn] at hheld
  refine ⟨hheld, fun feeds hfeeds => ?_⟩
  have hreturn' : '\r' ∉ document.trimEnd :=
    fun hmem => hreturn ((Text.trimEnd_isPrefix document).subset hmem)
  have hvisits := visits_lineFeeds {} hreturn' feeds
  rwa [← hfeeds, ← hheld] at hvisits

/-- Two code blocks, the second one without a closing fence and with two blank lines
at its end. -/
def openEnd : Text := "```a\none\n```\n```b\ntwo\n\n\n".toList

/-- The first block is kept as it is, and the second one without its end. -/
theorem walk_unclosed_openEnd :
    Comment.closing.occursIn openEnd = false ∧ '\r' ∉ openEnd ∧
      openEnd = openEnd.trimEnd ++ List.replicate 3 '\n' ∧
      (∃ w, Blanks w ∧ visits (walk {} openEnd) =
        (visits (walk {} (Comment.opening ++ '\n' :: openEnd))).modifyLast
          (Visit.extend w)) ∧
      visits (walk {} (Comment.opening ++ '\n' :: openEnd)) =
        [⟨[['a']], "one\n".toList⟩, ⟨[['b']], "two".toList⟩] := by
  have hclosing : Comment.closing.occursIn openEnd = false := by decide
  have hreturn : '\r' ∉ openEnd := by decide
  have hfeeds : openEnd = openEnd.trimEnd ++ List.replicate 3 '\n' := by decide
  obtain ⟨-, hplain⟩ := walk_unclosed hclosing
  exact ⟨hclosing, hreturn, hfeeds, (hplain hreturn).2 3 hfeeds, by decide +kernel⟩

/-- A code block without a closing fence. -/
def openFence : Text := "```\nx\n".toList

/-- The line feed behind the only line of the block is lost. -/
theorem visits_openFence :
    Comment.closing.occursIn openFence = false ∧ '\x00' ∉ openFence ∧
      visits (walk {} openFence) = [⟨[], ['x', '\n']⟩] ∧
      visits (walk {} (Comment.opening ++ '\n' :: openFence)) = [⟨[], ['x']⟩] := by
  decide +kernel

end Walker

end Tangle
