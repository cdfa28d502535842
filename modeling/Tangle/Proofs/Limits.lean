import Tangle.Proofs.WalkRefine

/-!
# What a limit on the depth leaves out

A walk with a limit and one with a higher limit, or with none, do the same up to
a comment that only the second one looks into. There the first one reports that
the comment lies too deep and goes on behind it. So the stricter walk visits a
subsequence, and if it has nothing to report there was no such comment
(`DepthFirst.unlimited`).

Every comment that is looked into costs an angle bracket. So no fragment lies
deeper than the document has brackets, and a limit that large reports nothing.
-/

namespace Tangle

open Markdown (Block parseBlocks)

/-- Whether a block is a comment. -/
def Markdown.Block.isComment : Block → Bool
  | .code _ _ => false
  | .html literal => (Comment.interior? literal).isSome

theorem visits_append (found more : List Finding) :
    visits (found ++ more) = visits found ++ visits more := List.filterMap_append

theorem warnings_eq_nil_iff {found : List Finding} :
    warnings found = [] ↔ ∀ limit, .tooDeep limit ∉ found := by
  rw [warnings, List.map_eq_nil_iff, List.filterMap_eq_nil_iff]
  constructor
  · intro h limit hmem
    cases h _ hmem
  · intro h finding hmem
    cases finding with
    | code visit => rfl
    | tooDeep limit => exact absurd hmem (h limit)

namespace Walker

/-- The second walker goes into every comment that the first one goes into. -/
structure LooksFurther (w w' : Walker) : Prop where
  includeComments : w.includeComments = w'.includeComments
  maxDepth : ∀ limit', w'.maxDepth = some limit' →
    ∃ limit, w.maxDepth = some limit ∧ limit ≤ limit'

theorem LooksFurther.of_le (includeComments : Bool) {limit limit' : Nat}
    (hle : limit ≤ limit') :
    LooksFurther ⟨includeComments, some limit⟩ ⟨includeComments, some limit'⟩ :=
  ⟨rfl, fun _ h => ⟨limit, rfl, Option.some.inj h ▸ hle⟩⟩

theorem LooksFurther.unlimited (w : Walker) :
    LooksFurther w ⟨w.includeComments, none⟩ := ⟨rfl, nofun⟩

/-- Where the stricter walk stops, the other one may have found something. -/
theorem DepthFirst.visits_sublist {w w' : Walker} (hw' : w.LooksFurther w')
    {depth : Nat} {blocks : List Block} {out : List Finding}
    (h : DepthFirst w depth blocks out) :
    (visits out).Sublist (visits (blocks.flatMap (w'.found depth))) := by
  induction h with
  | done => exact .refl _
  | code info literal _ ih => exact ih.cons_cons _
  | excluded hw _ ih =>
      rw [List.flatMap_cons,
        found_of_nothing (lookInside_excluded (hw'.includeComments ▸ hw) ..)]
      exact ih
  | plain hi _ ih =>
      rw [List.flatMap_cons, found_of_nothing (lookInside_plain hi _)]
      exact ih
  | tooDeep _ _ _ _ _ ih =>
      rw [List.flatMap_cons, visits_append]
      exact ih.trans (List.sublist_append_right ..)
  | @inside depth blocks inner out literal interior hw hi hm _ _ ihin ih =>
      have hm' : ∀ limit', w'.maxDepth = some limit' → depth + 1 ≤ limit' := by
        intro limit' hlimit'
        obtain ⟨limit, hlimit, hle⟩ := hw'.maxDepth limit' hlimit'
        exact Nat.le_trans (hm limit hlimit) hle
      rw [List.flatMap_cons, found_of_fragment
        (lookInside_inside (hw'.includeComments ▸ hw) hi hm'), findings_eq_flatMap,
        visits_append, visits_append]
      exact ihin.append ih

/-- A walk that left nothing out for its depth has used its limit nowhere. -/
theorem DepthFirst.unlimited {w : Walker} {depth : Nat} {blocks : List Block}
    {out : List Finding} (h : DepthFirst w depth blocks out)
    (hout : ∀ limit, .tooDeep limit ∉ out) :
    DepthFirst ⟨w.includeComments, none⟩ depth blocks out := by
  induction h with
  | done depth => exact .done depth
  | code info literal _ ih =>
      exact .code info literal
        (ih fun limit hmem => hout limit (List.mem_cons_of_mem _ hmem))
  | excluded hw _ ih => exact .excluded hw (ih hout)
  | plain hi _ ih => exact .plain hi (ih hout)
  | @tooDeep depth limit _ _ _ _ _ _ _ _ _ _ =>
      exact absurd (List.mem_cons_self ..) (hout limit)
  | inside hw hi _ _ _ ihin ih =>
      exact .inside hw hi nofun
        (ihin fun limit hmem => hout limit (List.mem_append_left _ hmem))
        (ih fun limit hmem => hout limit (List.mem_append_right _ hmem))

/-- A limit that covers the brackets of the blocks, on top of their depth, is
never passed. -/
theorem DepthFirst.not_tooDeep {w : Walker} {depth : Nat} {blocks : List Block}
    {out : List Finding} (h : DepthFirst w depth blocks out)
    (hcovers : ∀ limit, w.maxDepth = some limit →
      depth + bracketsOf blocks ≤ limit) :
    ∀ limit, .tooDeep limit ∉ out := by
  have keep {depth : Nat} {block : Block} {blocks : List Block}
      (h : ∀ limit, w.maxDepth = some limit →
        depth + bracketsOf (block :: blocks) ≤ limit) :
      ∀ limit, w.maxDepth = some limit → depth + bracketsOf blocks ≤ limit := by
    intro limit hlimit
    have hle := h limit hlimit
    rw [bracketsOf_cons] at hle
    omega
  induction h with
  | done => exact fun _ => List.not_mem_nil
  | code info literal _ ih =>
      intro limit hmem
      rcases List.mem_cons.1 hmem with heq | hmem
      · cases heq
      · exact ih (keep hcovers) limit hmem
  | excluded _ _ ih => exact ih (keep hcovers)
  | plain _ _ ih => exact ih (keep hcovers)
  | @tooDeep depth limit blocks out literal interior _ hi hm hd _ _ =>
      have hlt := angles_interior_lt hi
      have hle := hcovers limit hm
      rw [bracketsOf_cons] at hle
      have hliteral : (Block.html literal).literal = literal := rfl
      rw [hliteral] at hle
      omega
  | @inside depth blocks inner out literal interior _ hi _ _ _ ihin ih =>
      intro limit hmem
      rcases List.mem_append.1 hmem with hmem | hmem
      · refine ihin (fun limit hlimit => ?_) limit hmem
        have hlt := angles_interior_lt hi
        have hinterior := bracketsOf_parseBlocks_le interior
        have hle := hcovers limit hlimit
        rw [bracketsOf_cons] at hle
        have hliteral : (Block.html literal).literal = literal := rfl
        rw [hliteral] at hle
        omega
      · exact ih (keep hcovers) limit hmem

/-! ## A limit of zero -/

theorem visits_found_excluding (maxDepth : Option Nat) (block : Block) :
    visits (found ⟨true, some 0⟩ 0 block) =
      visits (found ⟨false, maxDepth⟩ 0 block) := by
  cases block with
  | code info literal => rfl
  | html literal =>
      have hexcluded : found ⟨false, maxDepth⟩ 0 (.html literal) = [] :=
        found_of_nothing (lookInside_excluded rfl ..)
      rw [hexcluded]
      cases hi : Comment.interior? literal with
      | none => rw [found_of_nothing (lookInside_plain hi _)]
      | some interior =>
          rw [found_of_tooDeep (lookInside_tooDeep rfl hi rfl Nat.zero_lt_one)]
          rfl

theorem warnings_found_zero (block : Block) :
    warnings (found ⟨true, some 0⟩ 0 block) =
      if block.isComment then [tooDeepMessage 0] else [] := by
  cases block with
  | code info literal => rfl
  | html literal =>
      rw [Block.isComment]
      cases hi : Comment.interior? literal with
      | none =>
          rw [found_of_nothing (lookInside_plain hi _)]
          rfl
      | some interior =>
          rw [found_of_tooDeep (lookInside_tooDeep rfl hi rfl Nat.zero_lt_one)]
          rfl

theorem warnings_found_blocks (blocks : List Block) :
    warnings (blocks.flatMap (found ⟨true, some 0⟩ 0)) =
      List.replicate (blocks.countP Block.isComment) (tooDeepMessage 0) := by
  induction blocks with
  | nil => rfl
  | cons block blocks ih =>
      have happend : warnings ((block :: blocks).flatMap (found ⟨true, some 0⟩ 0)) =
          warnings (found ⟨true, some 0⟩ 0 block) ++
            warnings (blocks.flatMap (found ⟨true, some 0⟩ 0)) := by
        simp only [warnings, List.flatMap_cons, List.filterMap_append, List.map_append]
      rw [happend, warnings_found_zero, ih, List.countP_cons]
      cases block.isComment <;> rfl

/-- A limit on the depth takes nothing away without saying so.

Under a limit the walk visits a subsequence of what it visits under a higher one,
and that is a subsequence of what it visits under none. A walk that reports no
comment as too deep is the walk without a limit, and from some limit on no walk
of the document reports one. A limit of zero does what leaving comments out
does, and reports every comment that stands in no other. -/
theorem walk_limited (includeComments : Bool) (document : Text) :
    let unlimited := walk ⟨includeComments, none⟩ document
    let upTo := fun limit => walk ⟨includeComments, some limit⟩ document
    (∀ limit limit', limit ≤ limit' →
      (visits (upTo limit)).Sublist (visits (upTo limit')) ∧
      (visits (upTo limit')).Sublist (visits unlimited)) ∧
    (∀ limit, warnings (upTo limit) = [] → upTo limit = unlimited) ∧
    (∃ enough, ∀ limit, enough ≤ limit → warnings (upTo limit) = []) ∧
    (∀ maxDepth, visits (walk ⟨true, some 0⟩ document) =
      visits (walk ⟨false, maxDepth⟩ document)) ∧
    warnings (walk ⟨true, some 0⟩ document) =
      List.replicate ((parseBlocks document).countP Block.isComment)
        (tooDeepMessage 0) := by
  intro unlimited upTo
  have hwalk (w : Walker) :
      DepthFirst w 0 (parseBlocks document) (w.walk document) :=
    depthFirst_iff.2 (walk_eq_found w document)
  have hsublist {w w' : Walker} (hw : w.LooksFurther w') :
      (visits (w.walk document)).Sublist (visits (w'.walk document)) := by
    rw [walk_eq_found w']
    exact (hwalk w).visits_sublist hw
  refine ⟨fun limit limit' hle => ⟨hsublist (.of_le _ hle), hsublist (.unlimited _)⟩,
    fun limit hsilent => ?_, ⟨angles document, fun limit hle => ?_⟩,
    fun maxDepth => ?_, ?_⟩
  · have hout := (hwalk ⟨includeComments, some limit⟩).unlimited
      (warnings_eq_nil_iff.1 hsilent)
    exact (depthFirst_iff.1 hout).trans (walk_eq_found _ document).symm
  · refine warnings_eq_nil_iff.2 ((hwalk _).not_tooDeep fun limit' hlimit' => ?_)
    cases hlimit'
    have hbrackets := bracketsOf_parseBlocks_le document
    omega
  · rw [walk_eq_found, walk_eq_found, visits, visits, List.filterMap_flatMap,
      List.filterMap_flatMap]
    exact congrArg (fun f => (parseBlocks document).flatMap f)
      (funext (visits_found_excluding maxDepth))
  · rw [walk_eq_found]
    exact warnings_found_blocks (parseBlocks document)

/-- Two comments in each other, a block in each of them and one behind both. -/
def nestedTwice : Text :=
  ["<!--", "```a", "one", "```", "<!--", "```b", "two", "```", "-->", "-->", "",
    "```c", "none", "```"].flatMap fun line => line.toList ++ ['\n']

/-- A limit of one keeps two of the three blocks and says so; a limit of two keeps
all of them and has nothing to say. -/
theorem walk_limited_nestedTwice :
    let upTo := fun limit => walk ⟨true, some limit⟩ nestedTwice
    1 ≤ 2 ∧ (visits (upTo 1)).Sublist (visits (upTo 2)) ∧
      (visits (upTo 1)).map Visit.literal = ["one\n".toList, "none\n".toList] ∧
      warnings (upTo 1) = [tooDeepMessage 1] ∧
      warnings (upTo 2) = [] ∧ upTo 2 = walk ⟨true, none⟩ nestedTwice ∧
      (visits (upTo 2)).map Visit.literal =
        ["one\n".toList, "two\n".toList, "none\n".toList] := by
  intro upTo
  have hsilent : warnings (upTo 2) = [] := by decide +kernel
  obtain ⟨hsublist, hunlimited, -⟩ := walk_limited true nestedTwice
  exact ⟨by decide, (hsublist 1 2 (by decide)).1, by decide +kernel,
    by decide +kernel, hsilent, hunlimited 2 hsilent, by decide +kernel⟩

end Walker

end Tangle
