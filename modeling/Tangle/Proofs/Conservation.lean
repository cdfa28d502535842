import Mathlib.Algebra.GroupWithZero.Nat
import Mathlib.Data.List.Flatten
import Mathlib.Data.List.Perm.Subperm
import Tangle.Proofs.Grouping
import Tangle.Proofs.WalkRefine

/-!
# Extraction makes no text up

The parser hands out the ink of a fragment once and in order (`ink_parseBlocks`).
A comment's interior is a part of its literal, so looking into the comment only
replaces a literal by something made of its own ink. Along the depth-first
reading of a document this gives the law for the walk: what it visits is, blanks
aside, a subsequence of the document.

What extraction does with the visited blocks adds nothing to that. A single text
leaves blocks out; a file map leaves blocks out and deals the rest out to its
paths, which may change their order but neither copies nor invents any of them.
-/

namespace Tangle

open Markdown (Block parseBlocks)

namespace Comment

theorem interior?_sublist {literal interior : Text}
    (h : interior? literal = some interior) : interior.Sublist literal := by
  obtain ⟨front, back, hstripped⟩ := exists_stripped h
  have hmiddle : interior <:+: literal.trim := ⟨front, back, hstripped.split.symm⟩
  exact hmiddle.sublist.trans (Text.trim_sublist literal)

end Comment

/-! ## The walk -/

/-- The literals of the code blocks among findings, one after the other. -/
def literals (found : List Finding) : Text :=
  (visits found).flatMap Visit.literal

theorem literals_cons (finding : Finding) (found : List Finding) :
    literals (finding :: found) =
      (finding.visit?.elim [] Visit.literal) ++ literals found := by
  cases finding <;> rfl

theorem literals_append (found more : List Finding) :
    literals (found ++ more) = literals found ++ literals more := by
  rw [literals, visits, List.filterMap_append, List.flatMap_append, literals,
    literals, visits, visits]

namespace Walker

/-- What the blocks of a fragment come to is made of their literals. A block
that is passed over leaves its ink unused; a comment that is entered gives way
to the literals of its interior. -/
theorem DepthFirst.literals_sublist {w : Walker} {depth : Nat} {blocks : List Block}
    {out : List Finding} (h : DepthFirst w depth blocks out) :
    (ink (literals out)).Sublist (ink (blocks.flatMap Block.literal)) := by
  -- Passing over a block leaves its ink unused.
  have pass {block : Block} {blocks : List Block} {found : Text}
      (h : (ink found).Sublist (ink (blocks.flatMap Block.literal))) :
      (ink found).Sublist (ink ((block :: blocks).flatMap Block.literal)) := by
    rw [List.flatMap_cons, ink_append]
    exact h.trans (List.sublist_append_right ..)
  induction h with
  | done => exact List.Sublist.refl _
  | code info literal _ ih =>
      rw [literals_cons, ink_append, List.flatMap_cons, ink_append]
      exact (List.Sublist.refl _).append ih
  | excluded _ _ ih => exact pass ih
  | plain _ _ ih => exact pass ih
  | tooDeep _ _ _ _ _ ih => exact pass ih
  | @inside depth blocks inner out literal interior _ hi _ _ _ ihin ih =>
      have hinterior : (ink (literals inner)).Sublist (ink literal) :=
        ihin.trans ((Markdown.ink_parseBlocks interior).trans
          (ink_sublist (Comment.interior?_sublist hi)))
      rw [literals_append, ink_append, List.flatMap_cons, ink_append]
      exact hinterior.append ih

theorem ink_walk (w : Walker) (document : Text) :
    (ink (literals (w.walk document))).Sublist (ink document) :=
  (depthFirst_iff.2 (walk_eq_found w document)).literals_sublist.trans
    (Markdown.ink_parseBlocks document)

end Walker

/-! ## Extraction -/

theorem TagFilter.single_sublist (f : TagFilter) (visited : List Visit) :
    (f.single visited).Sublist (visited.flatMap Visit.literal) :=
  List.filter_sublist.flatMap _

/-- The routed texts are literals of visited blocks, in their order. -/
theorem TagFilter.routed_sublist (f : TagFilter) (visited : List Visit) :
    ((visited.filterMap f.route?).flatMap Prod.snd).Sublist
      (visited.flatMap Visit.literal) := by
  induction visited with
  | nil => exact List.Sublist.refl _
  | cons v visited ih =>
      rw [List.filterMap_cons, List.flatMap_cons]
      cases h : f.route? v with
      | none => exact ih.trans (List.sublist_append_right ..)
      | some route =>
          have hliteral : route.2 = v.literal := by
            unfold route? at h
            split at h
            · cases h
            · split at h <;> cases h
              rfl
          rw [List.flatMap_cons, hliteral]
          exact (List.Sublist.refl _).append ih

/-- The texts of a file map are the routed texts, dealt out anew. -/
theorem TagFilter.contents_multi_perm (f : TagFilter) (visited : List Visit) :
    (f.multi visited).contents.Perm
      ((visited.filterMap f.route?).flatMap Prod.snd) := by
  rw [multi_eq]
  exact FileMap.contents_ofEntries_perm _

/-- Blanks aside, what a walk visits is a subsequence of the document, and so is
what single extraction makes of it, whatever the filter. The texts of a file map
use no character of the document more often than it is there, so they have no
more characters in all. -/
theorem extraction_conserves (w : Walker) (document : Text) :
    (ink ((visits (w.walk document)).flatMap Visit.literal)).Sublist
      (ink document) ∧
    ∀ f : TagFilter,
      (ink (ExtractOptions.single ⟨f, w⟩ document).value).Sublist
        (ink document) ∧
      (ink (ExtractOptions.multi ⟨f, w⟩ document).value.contents).Subperm
        (ink document) ∧
      ((ExtractOptions.multi ⟨f, w⟩ document).value.entries.map
        fun entry => (ink entry.2).length).sum ≤ (ink document).length := by
  have hwalk := w.ink_walk document
  refine ⟨hwalk, fun f => ?_⟩
  have hsingle := (ink_sublist (f.single_sublist (visits (w.walk document)))).trans
    hwalk
  have hrouted := (ink_sublist (f.routed_sublist (visits (w.walk document)))).trans
    hwalk
  have hmulti : (ink (f.multi (visits (w.walk document))).contents).Subperm
      (ink document) :=
    ⟨_, ((f.contents_multi_perm _).filter _).symm, hrouted⟩
  refine ⟨hsingle, hmulti, ?_⟩
  have hlength := hmulti.length_le
  rw [FileMap.contents, ink, List.filter_flatMap, List.length_flatMap] at hlength
  exact hlength

end Tangle
