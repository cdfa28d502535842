import Tangle.Proofs.MarkReading
import Tangle.Proofs.WalkRefine

/-!
# What a walk finds in a forest

A walk finds the blocks of a list of marks whose depth it admits, in the order
in which they are written. The induction is on the number of marks: a comment
is replaced by its interior, which holds fewer of them, and the rest of the
text is read on. Outside all comments any marks may follow; inside a comment no
closing delimiter is left, because the comment has ended at the first one. That
is the invariant.

A forest is such a list, and there the depth is reached depth, not written
depth. Without a limit this makes no difference and all blocks are found. With
one, or with comments left out, the blocks that the author has enclosed too
deep are left out as long as no inner comment has ended before them.
-/

namespace Tangle

open Markdown (Leaf State leaves parseBlocks)
open Mark (depths Writes Enclosed)

namespace Walker

/-- How deep a block may lie to be found, if there is a limit to that. -/
def limit? (w : Walker) : Option Nat :=
  if w.includeComments then w.maxDepth else some 0

/-- Whether a block at this depth is found. -/
def admits (w : Walker) (depth : Nat) : Bool :=
  w.limit?.all fun limit => depth ≤ limit

variable {w : Walker}

theorem admits_zero (w : Walker) : w.admits 0 = true := by
  cases hlimit : w.limit? <;> simp [admits, hlimit]

theorem admits_of_le {depth depth' : Nat} (hle : depth ≤ depth')
    (h : w.admits depth' = true) : w.admits depth = true := by
  cases hlimit : w.limit? with
  | none => rw [admits, hlimit, Option.all_none]
  | some limit =>
      rw [admits, hlimit, Option.all_some, decide_eq_true_eq] at h ⊢
      exact Nat.le_trans hle h

/-! ## Lists of marks -/

/-- The code blocks of a list that lie at depths a walk admits. -/
def admitted (w : Walker) (blocks : List (Fence × Nat)) : List Visit :=
  (blocks.filter fun p => w.admits p.2).map fun p => p.1.visit

theorem admitted_cons {depth : Nat} (h : w.admits depth = true) (fence : Fence)
    (blocks : List (Fence × Nat)) :
    w.admitted ((fence, depth) :: blocks) = fence.visit :: w.admitted blocks := by
  rw [admitted, List.filter_cons_of_pos (by exact h), List.map_cons, admitted]

theorem admitted_append (blocks blocks' : List (Fence × Nat)) :
    w.admitted (blocks ++ blocks') = w.admitted blocks ++ w.admitted blocks' := by
  rw [admitted, List.filter_append, List.map_append, admitted, admitted]

theorem admitted_eq_nil {blocks : List (Fence × Nat)}
    (h : ∀ p ∈ blocks, w.admits p.2 = false) : w.admitted blocks = [] := by
  rw [admitted, List.map_eq_nil_iff, List.filter_eq_nil_iff]
  intro p hp
  rw [h p hp]
  exact Bool.false_ne_true

/-- The code blocks that a walk finds in leaves of the given depth. -/
def visitsIn (w : Walker) (depth : Nat) (found : List Leaf) : List Visit :=
  visits ((found.map Leaf.block).flatMap (w.found depth))

theorem visitsIn_nil (w : Walker) (depth : Nat) : w.visitsIn depth [] = [] := rfl

theorem visitsIn_cons (depth : Nat) (leaf : Leaf) (rest : List Leaf) :
    w.visitsIn depth (leaf :: rest) =
      visits (w.found depth leaf.block) ++ w.visitsIn depth rest := by
  rw [visitsIn, List.map_cons, List.flatMap_cons, visits, List.filterMap_append]
  rfl

theorem visits_findings (w : Walker) (depth : Nat) (s : Text) :
    visits (w.findings depth s) = w.visitsIn depth (leaves .initial s) := by
  rw [findings_eq_flatMap, Markdown.parseBlocks_eq_map, visitsIn]

theorem visits_found_leaf (depth : Nat) (fence : Fence) :
    visits (w.found depth fence.leaf.block) = [fence.visit] := by
  rw [Fence.leaf, Leaf.block, found, Option.getD_some, fence.parseTags_info]
  rfl

/-- What a comment contributes, whose interior would lie at `depth + 1`. -/
theorem visits_found_html {depth : Nat} {literal interior : Text}
    (hi : Comment.interior? literal = some interior) :
    visits (w.found depth (.html literal)) =
      if w.admits (depth + 1) then w.visitsIn (depth + 1) (leaves .initial interior)
      else [] := by
  cases hw : w.includeComments with
  | false =>
      have hadmits : w.admits (depth + 1) = false := by simp [admits, limit?, hw]
      rw [found_of_nothing (lookInside_excluded hw ..), hadmits]
      rfl
  | true =>
      by_cases hd : ∃ limit, w.maxDepth = some limit ∧ limit < depth + 1
      · obtain ⟨limit, hm, hd⟩ := hd
        have hadmits : w.admits (depth + 1) = false := by
          rw [admits, limit?, hw, if_pos rfl, hm, Option.all_some,
            decide_eq_false_iff_not]
          exact Nat.not_le.2 hd
        rw [found_of_tooDeep (lookInside_tooDeep hw hi hm hd), hadmits]
        rfl
      · have hall : ∀ limit, w.maxDepth = some limit → depth + 1 ≤ limit :=
          fun limit hm => Nat.not_lt.1 fun hlt => hd ⟨limit, hm, hlt⟩
        have hadmits : w.admits (depth + 1) = true := by
          cases hm : w.maxDepth with
          | none => simp [admits, limit?, hw, hm]
          | some limit => simpa [admits, limit?, hw, hm] using hall limit hm
        rw [found_of_fragment (lookInside_inside hw hi hall), hadmits, if_pos rfl,
          visits_findings]

/-- A comment contributes the admitted blocks of the marks inside it, if that
is so wherever these marks stand at the beginning of a text. -/
theorem visits_found_comment {depth : Nat} {marks : List Mark}
    {literal interior : Text}
    (hi : Comment.interior? literal = some interior)
    (henclosed : Enclosed marks interior)
    (hclosing : Mark.closing ∉ marks)
    (hread : w.admits (depth + 1) = true → ∀ (s : Text) (st : State),
      Writes marks s → st.containers = [] →
      w.visitsIn (depth + 1) (leaves st s) =
        w.admitted (depths (depth + 1) marks)) :
    visits (w.found depth (.html literal)) =
      w.admitted (depths (depth + 1) marks) := by
  rw [visits_found_html hi]
  cases hadmits : w.admits (depth + 1) with
  | true =>
      rw [if_pos rfl]
      rcases henclosed with ⟨rfl, rfl⟩ | ⟨s, rfl, hs⟩
      · rw [Markdown.leaves_nil]
        rfl
      · have hinitial : State.initial.containers = [] := rfl
        obtain ⟨st, hblank, hst⟩ := Markdown.leaves_lineFeed hinitial s
        rw [hblank]
        exact hread hadmits s st hs hst
  | false =>
      rw [if_neg Bool.false_ne_true, admitted_eq_nil]
      intro p hp
      have hle := Mark.le_of_mem_depths hclosing p hp
      refine Bool.eq_false_iff.2 fun h => ?_
      rw [admits_of_le hle h] at hadmits
      cases hadmits

theorem depths_opening {depth : Nat} {marks within behind : List Mark}
    (hdepth : depth = 0 ∨ Mark.closing ∉ marks)
    (hmarks : marks = within ∧ behind = [] ∨
      marks = within ++ Mark.closing :: behind) :
    depths depth (.opening :: marks) =
      depths (depth + 1) within ++ depths depth behind := by
  rcases hmarks with ⟨rfl, rfl⟩ | rfl
  · rw [depths, depths, List.append_nil]
  · have hzero : depth = 0 := hdepth.resolve_right fun hnot => hnot (by simp)
    rw [depths, Mark.depths_append_closing, hzero]

/-- The walk finds the blocks of a text by the depth they have in its list of
marks. -/
theorem visitsIn_leaves : ∀ (n : Nat) {marks : List Mark} {s : Text} {depth : Nat}
    {st : State}, marks.length < n → Writes marks s → st.containers = [] →
    w.admits depth = true → (depth = 0 ∨ Mark.closing ∉ marks) →
    w.visitsIn depth (leaves st s) = w.admitted (depths depth marks) := by
  intro n
  induction n with
  | zero =>
      intro marks s depth st hlength
      exact absurd hlength (Nat.not_lt_zero _)
  | succ n ih =>
      intro marks s depth st hlength h hst hadmits hdepth
      have hclosed := State.containers_finishList hst
      cases marks with
      | nil =>
          rw [h.eq_nil, Markdown.leaves_nil, visitsIn_nil]
          rfl
      | cons m marks =>
          have hshort : marks.length < n := Nat.lt_of_succ_lt_succ hlength
          have hbehind : depth = 0 ∨ Mark.closing ∉ marks :=
            hdepth.imp_right List.not_mem_of_not_mem_cons
          cases m with
          | block fence =>
              obtain ⟨st', s', hleaves, hst', hrest⟩ :=
                Mark.leaves_block_marks h hst
              rw [hleaves, visitsIn_cons, visits_found_leaf,
                ih hshort hrest hst' hadmits hbehind, depths,
                admitted_cons hadmits]
              rfl
          | opening =>
              -- What the comment takes and what it leaves are both shorter, and
              -- no comment ends in what it takes.
              obtain ⟨lines, interior, s', within, behind, hleaves, hinterior,
                henclosed, hnot, hrest, hmarks⟩ := Mark.leaves_opening_marks h hst
              have hlengths : within.length < n ∧ behind.length < n := by
                rcases hmarks with ⟨rfl, rfl⟩ | rfl
                · exact ⟨hshort, Nat.zero_lt_of_lt hshort⟩
                · rw [List.length_append, List.length_cons] at hshort
                  omega
              have hcomment : visits (w.found depth (.html lines.flatten)) =
                  w.admitted (depths (depth + 1) within) :=
                visits_found_comment hinterior henclosed hnot
                  fun hadmits' t st' ht hst' =>
                    ih hlengths.1 ht hst' hadmits' (Or.inr hnot)
              have hafter : depth = 0 ∨ Mark.closing ∉ behind := by
                rcases hmarks with ⟨-, rfl⟩ | rfl
                · exact Or.inr List.not_mem_nil
                · exact Or.inl (hbehind.resolve_right fun h => h (by simp))
              rw [hleaves, visitsIn_cons, Leaf.block, hcomment,
                ih hlengths.2 hrest hclosed hadmits hafter,
                depths_opening hbehind hmarks, admitted_append]
          | closing =>
              -- A comment that has not been opened can only end outside all of
              -- them.
              have hzero : depth = 0 :=
                hdepth.resolve_right fun hnot => hnot (List.mem_cons_self ..)
              obtain ⟨s', k, marks', hleaves, hmarks, hrest⟩ :=
                Mark.leaves_closing_marks h hst
              have hfewer : marks'.length < n := by
                rw [hmarks, List.length_append] at hshort
                omega
              rw [hleaves, ih hfewer hrest hclosed hadmits (Or.inl hzero), depths,
                hzero, hmarks, Mark.depths_replicate_closing]

/-! ## Forests -/

/-- A walk through a forest goes by reached depth. -/
theorem visits_walk (w : Walker) (f : Forest) : visits (w.walk f.render) =
    (f.placed.filter fun p => w.admits p.reached).map fun p => p.fence.visit := by
  have hwrites : Writes f.marks f.render := by
    rw [f.render_eq_written]
    exact Mark.writes_written f.marks
  rw [walk_eq_findings, visits_findings,
    visitsIn_leaves (f.marks.length + 1) (Nat.lt_succ_self _) hwrites rfl
      w.admits_zero (Or.inl rfl),
    f.depths_marks 0 0, admitted, List.filter_map, List.map_map]
  rfl

/-- Without a limit the walk flattens a forest: it visits its code blocks, each
once, in the order in which they are written, and nothing else. -/
theorem walk_render (f : Forest) :
    visits (Walker.walk {} f.render) = f.fences.map Fence.visit := by
  have hall : ∀ p ∈ f.placed, Walker.admits {} p.reached = true := fun _ _ => rfl
  rw [visits_walk, List.filter_eq_self.2 hall, ← f.map_fence_placedIn 0 0,
    List.map_map]
  rfl

end Walker

end Tangle
