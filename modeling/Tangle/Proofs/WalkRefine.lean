import Tangle.Proofs.WalkLoop

/-!
# The loop does what the recursion says

`DepthFirst` reads off what the blocks of a fragment come to, with the result
of an interior in the place of its comment. It mentions no stack, no budget and
no measure. Three things are shown equal to it.

The recursive `findings` is one: its test for a smaller interior always
succeeds, since an interior has fewer brackets than the fragment around it. The
walk that runs is another: it keeps all pending blocks in one list, and the
budget it counts down covers the brackets of that list. The third is the loop
over a stack of half-consumed fragments. For that one the invariant speaks of
any stack: what has been reported so far, followed by the results of all that
is pending from the top of the stack to the bottom, never changes.
-/

namespace Tangle.Walker

open Markdown (Block parseBlocks)

/-- The findings in the blocks of a fragment that `depth` comments enclose. -/
inductive DepthFirst (w : Walker) : Nat → List Block → List Finding → Prop where
  | done (depth : Nat) : DepthFirst w depth [] []
  | code {depth : Nat} {blocks : List Block} {out : List Finding}
      (info literal : Text) (rest : DepthFirst w depth blocks out) :
      DepthFirst w depth (.code info literal :: blocks)
        (.code ⟨parseTags info, literal⟩ :: out)
  /-- Comments are not looked into. -/
  | excluded {depth : Nat} {blocks : List Block} {out : List Finding}
      {literal : Text} (hw : w.includeComments = false)
      (rest : DepthFirst w depth blocks out) :
      DepthFirst w depth (.html literal :: blocks) out
  /-- The block is not a comment. -/
  | plain {depth : Nat} {blocks : List Block} {out : List Finding}
      {literal : Text} (hi : Comment.interior? literal = none)
      (rest : DepthFirst w depth blocks out) :
      DepthFirst w depth (.html literal :: blocks) out
  /-- The interior would lie deeper than the limit. -/
  | tooDeep {depth limit : Nat} {blocks : List Block} {out : List Finding}
      {literal interior : Text} (hw : w.includeComments = true)
      (hi : Comment.interior? literal = some interior)
      (hm : w.maxDepth = some limit) (hd : limit < depth + 1)
      (rest : DepthFirst w depth blocks out) :
      DepthFirst w depth (.html literal :: blocks) (.tooDeep limit :: out)
  | inside {depth : Nat} {blocks : List Block} {inner out : List Finding}
      {literal interior : Text} (hw : w.includeComments = true)
      (hi : Comment.interior? literal = some interior)
      (hm : ∀ limit, w.maxDepth = some limit → depth + 1 ≤ limit)
      (within : DepthFirst w (depth + 1) (parseBlocks interior) inner)
      (rest : DepthFirst w depth blocks out) :
      DepthFirst w depth (.html literal :: blocks) (inner ++ out)

/-! ## The recursive form -/

/-- What `findings` makes of one block. -/
def found (w : Walker) (depth : Nat) : Block → List Finding
  | .code info literal => [.code ⟨parseTags info, literal⟩]
  | .html literal =>
    match w.lookInside (depth + 1) literal with
    | .nothing => []
    | .tooDeep limit => [.tooDeep limit]
    | .fragment interior => w.findings (depth + 1) interior

section

variable {w : Walker} {depth : Nat} {literal : Text}

theorem found_of_nothing (h : w.lookInside (depth + 1) literal = .nothing) :
    w.found depth (.html literal) = [] := by simp only [found, h]

theorem found_of_tooDeep {limit : Nat}
    (h : w.lookInside (depth + 1) literal = .tooDeep limit) :
    w.found depth (.html literal) = [.tooDeep limit] := by simp only [found, h]

theorem found_of_fragment {interior : Text}
    (h : w.lookInside (depth + 1) literal = .fragment interior) :
    w.found depth (.html literal) = w.findings (depth + 1) interior := by
  simp only [found, h]

end

/-- The interior of a comment is always smaller than the fragment. -/
theorem findings_eq_flatMap (w : Walker) (depth : Nat) (s : Text) :
    w.findings depth s = (parseBlocks s).flatMap (w.found depth) := by
  rw [findings, List.flatMap_def, List.flatMap_def]
  refine congrArg List.flatten (List.map_congr_left fun block hblock => ?_)
  cases block with
  | code info literal => rfl
  | html literal =>
      dsimp only
      split
      · rename_i hlook
        rw [found_of_nothing hlook]
      · rename_i limit hlook
        rw [found_of_tooDeep hlook]
      · rename_i interior hlook
        have hlt := angles_interior_lt (interior?_of_lookInside hlook)
        have hle : angles literal ≤ angles s :=
          Nat.le_trans (angles_literal_le hblock) (bracketsOf_parseBlocks_le s)
        rw [if_pos (Nat.lt_of_lt_of_le hlt hle), found_of_fragment hlook]

/-! The four rules for an HTML block, as `lookInside` decides between them. -/

theorem lookInside_excluded {w : Walker} (hw : w.includeComments = false)
    (depth : Nat) (literal : Text) : w.lookInside depth literal = .nothing := by
  simp [lookInside, hw]

theorem lookInside_plain {w : Walker} {literal : Text}
    (hi : Comment.interior? literal = none) (depth : Nat) :
    w.lookInside depth literal = .nothing := by
  cases hw : w.includeComments <;> simp [lookInside, hw, hi]

section

variable {w : Walker} {literal interior : Text} {depth : Nat}

theorem lookInside_tooDeep {limit : Nat} (hw : w.includeComments = true)
    (hi : Comment.interior? literal = some interior)
    (hm : w.maxDepth = some limit) (hd : limit < depth) :
    w.lookInside depth literal = .tooDeep limit := by
  simp [lookInside, hw, hi, hm, hd]

theorem lookInside_inside (hw : w.includeComments = true)
    (hi : Comment.interior? literal = some interior)
    (hm : ∀ limit, w.maxDepth = some limit → depth ≤ limit) :
    w.lookInside depth literal = .fragment interior := by
  cases hmax : w.maxDepth with
  | none => simp [lookInside, hw, hi, hmax]
  | some limit =>
      have hd : ¬ depth > limit := Nat.not_lt.2 (hm limit hmax)
      simp [lookInside, hw, hi, hmax, hd]

end

theorem DepthFirst.eq_found {w : Walker} {depth : Nat} {blocks : List Block}
    {out : List Finding} (h : DepthFirst w depth blocks out) :
    out = blocks.flatMap (w.found depth) := by
  induction h with
  | done => rfl
  | code info literal _ ih =>
      rw [List.flatMap_cons, ← ih]
      rfl
  | excluded hw _ ih =>
      rw [List.flatMap_cons, found_of_nothing (lookInside_excluded hw ..),
        List.nil_append, ih]
  | plain hi _ ih =>
      rw [List.flatMap_cons, found_of_nothing (lookInside_plain hi _),
        List.nil_append, ih]
  | tooDeep hw hi hm hd _ ih =>
      rw [List.flatMap_cons, found_of_tooDeep (lookInside_tooDeep hw hi hm hd),
        ih, List.singleton_append]
  | inside hw hi hm _ _ ihin ih =>
      rw [List.flatMap_cons, found_of_fragment (lookInside_inside hw hi hm),
        findings_eq_flatMap, ← ihin, ih]

/-- Every run of blocks has a result. The induction is on a bound for the
brackets of a single literal: those of an interior's literals are fewer. -/
theorem depthFirst_found (w : Walker) : ∀ (bound : Nat) (blocks : List Block),
    (∀ block ∈ blocks, angles block.literal < bound) → ∀ depth : Nat,
    DepthFirst w depth blocks (blocks.flatMap (w.found depth)) := by
  intro bound
  induction bound with
  | zero =>
      intro blocks hblocks depth
      cases blocks with
      | nil => exact .done depth
      | cons block blocks =>
          exact absurd (hblocks block (List.mem_cons_self ..)) (Nat.not_lt_zero _)
  | succ bound ihbound =>
      intro blocks hblocks depth
      induction blocks with
      | nil => exact .done depth
      | cons block blocks ih =>
          have hrest := ih fun b hb => hblocks b (List.mem_cons_of_mem _ hb)
          rw [List.flatMap_cons]
          cases block with
          | code info literal => exact .code info literal hrest
          | html literal =>
              cases hw : w.includeComments with
              | false =>
                  rw [found_of_nothing (lookInside_excluded hw ..)]
                  exact .excluded hw hrest
              | true =>
                  cases hi : Comment.interior? literal with
                  | none =>
                      rw [found_of_nothing (lookInside_plain hi _)]
                      exact .plain hi hrest
                  | some interior =>
                      by_cases hm : ∀ limit, w.maxDepth = some limit →
                          depth + 1 ≤ limit
                      · rw [found_of_fragment (lookInside_inside hw hi hm),
                          findings_eq_flatMap]
                        refine .inside hw hi hm (ihbound _ ?_ (depth + 1)) hrest
                        intro b hb
                        have h₁ := angles_literal_le hb
                        have h₂ := bracketsOf_parseBlocks_le interior
                        have h₃ := angles_interior_lt hi
                        have h₄ : angles literal < bound + 1 :=
                          hblocks _ (List.mem_cons_self ..)
                        omega
                      · obtain ⟨limit, hlimit⟩ := Classical.not_forall.1 hm
                        obtain ⟨hm, hd⟩ := Classical.not_imp.1 hlimit
                        have hd := Nat.lt_of_not_le hd
                        rw [found_of_tooDeep (lookInside_tooDeep hw hi hm hd)]
                        exact .tooDeep hw hi hm hd hrest

theorem depthFirst_iff {w : Walker} {depth : Nat} {blocks : List Block}
    {out : List Finding} :
    DepthFirst w depth blocks out ↔ out = blocks.flatMap (w.found depth) := by
  constructor
  · exact DepthFirst.eq_found
  · rintro rfl
    exact depthFirst_found w (bracketsOf blocks + 1) blocks
      (fun _ hb => Nat.lt_succ_of_le (angles_literal_le hb)) depth

/-! ## The list of pending blocks -/

/-- The brackets of the pending blocks. -/
def pendingBrackets (pending : List Pending) : Nat :=
  bracketsOf (pending.map Pending.block)

theorem pendingBrackets_cons (p : Pending) (pending : List Pending) :
    pendingBrackets (p :: pending) =
      angles p.block.literal + pendingBrackets pending :=
  bracketsOf_cons ..

theorem pendingBrackets_enter (depth : Nat) (s : Text) (pending : List Pending) :
    pendingBrackets (Pending.ofFragment depth s ++ pending) =
      bracketsOf (parseBlocks s) + pendingBrackets pending := by
  simp [pendingBrackets, Pending.ofFragment, bracketsOf, Function.comp_def]

/-- A round of the walk that runs: the pending blocks are worked off from the
front, and a comment that is entered hands over a list with fewer brackets. -/
theorem resume_eq {w : Walker} {enter : List Pending → List Finding}
    (pending : List Pending)
    (henter : ∀ next, pendingBrackets next < pendingBrackets pending →
      enter next = next.flatMap fun p => w.found p.depth p.block) :
    w.resume enter pending = pending.flatMap fun p => w.found p.depth p.block := by
  induction pending with
  | nil => rfl
  | cons p pending ih =>
      obtain ⟨depth, block⟩ := p
      have hrest := ih fun next hnext => henter next (by
        rw [pendingBrackets_cons]
        exact Nat.lt_of_lt_of_le hnext (Nat.le_add_left ..))
      rw [List.flatMap_cons]
      cases block with
      | code info literal =>
          rw [resume, hrest]
          rfl
      | html literal =>
          rw [resume]
          split
          · rename_i hlook
            rw [hrest, found_of_nothing hlook, List.nil_append]
          · rename_i limit hlook
            rw [hrest, found_of_tooDeep hlook, List.singleton_append]
          · rename_i interior hlook
            have h₁ := bracketsOf_parseBlocks_le interior
            have h₂ : angles interior < angles literal :=
              angles_interior_lt (interior?_of_lookInside hlook)
            rw [henter, List.flatMap_append, Pending.ofFragment, List.flatMap_map,
              found_of_fragment hlook, findings_eq_flatMap]
            rw [pendingBrackets_enter, pendingBrackets_cons]
            exact Nat.add_lt_add_right (Nat.lt_of_le_of_lt h₁ h₂) _

/-- The budget is bookkeeping: one that covers the brackets never runs out. -/
theorem drain_eq (w : Walker) : ∀ (budget : Nat) (pending : List Pending),
    pendingBrackets pending ≤ budget →
    w.drain budget pending = pending.flatMap fun p => w.found p.depth p.block := by
  intro budget
  induction budget with
  | zero =>
      intro pending hpending
      rw [drain]
      refine resume_eq pending fun next hnext => ?_
      exact absurd hnext (by omega)
  | succ budget ih =>
      intro pending hpending
      rw [drain]
      exact resume_eq pending fun next hnext => ih next (by omega)

theorem walk_eq_found (w : Walker) (document : Text) :
    w.walk document = (parseBlocks document).flatMap (w.found 0) := by
  have hmap : (Pending.ofFragment 0 document).map Pending.block =
      parseBlocks document := by
    simp [Pending.ofFragment, Function.comp_def]
  rw [walk, drain_eq]
  · rw [Pending.ofFragment, List.flatMap_map]
  · rw [pendingBrackets, hmap]
    exact bracketsOf_parseBlocks_le document

theorem walk_eq_findings (w : Walker) (document : Text) :
    w.walk document = w.findings 0 document := by
  rw [walk_eq_found, findings_eq_flatMap]

/-! ## The stack of fragments -/

/-- The results of all that is pending on a stack, from its top on. -/
def ahead (w : Walker) (stack : List Frame) : List Finding :=
  stack.flatMap fun frame => frame.blocks.flatMap (w.found frame.depth)

/-- One round moves what it reports from the pending results to the reported
ones and leaves the rest as it is. -/
theorem ahead_round {w : Walker} {stack stack' : List Frame} {r : Round}
    (h : w.round stack = some (r, stack')) :
    w.ahead stack = reports [r] ++ w.ahead stack' := by
  unfold round at h
  split at h
  · cases h
  · cases h
    rfl
  · cases h
    rfl
  · rename_i depth literal blocks below
    have hahead : w.ahead (⟨depth, .html literal :: blocks⟩ :: below) =
        w.found depth (.html literal) ++ w.ahead (⟨depth, blocks⟩ :: below) := by
      simp [ahead]
    rw [hahead]
    split at h <;> cases h
    · rename_i hlook
      rw [found_of_nothing hlook]
      rfl
    · rename_i limit hlook
      rw [found_of_tooDeep hlook]
      rfl
    · rename_i interior hlook
      rw [found_of_fragment hlook, findings_eq_flatMap]
      rfl

theorem Run.ahead_eq {w : Walker} {first last : List Frame}
    {rounds : List Round} (h : Run w first rounds last) :
    w.ahead first = reports rounds ++ w.ahead last := by
  induction h with
  | here stack => rfl
  | @next stack stack' last r rounds h _ ih =>
      rw [ahead_round h, ih, reports_cons r rounds, List.append_assoc]

/-- The results of all that is pending on a stack, one fragment after the
other. -/
inductive Results (w : Walker) : List Frame → List Finding → Prop where
  | nil : Results w [] []
  | cons {frame : Frame} {below : List Frame} {out rest : List Finding}
      (top : DepthFirst w frame.depth frame.blocks out)
      (under : Results w below rest) :
      Results w (frame :: below) (out ++ rest)

theorem results_iff {w : Walker} {stack : List Frame} {out : List Finding} :
    Results w stack out ↔ out = w.ahead stack := by
  constructor
  · intro h
    induction h with
    | nil => rfl
    | cons top _ ih => rw [depthFirst_iff.1 top, ih]; rfl
  · rintro rfl
    induction stack with
    | nil => exact .nil
    | cons frame below ih => exact .cons (depthFirst_iff.2 rfl) ih

/-- The loop works off the fragment on top of any stack, reports its result and
leaves what is below untouched. -/
theorem DepthFirst.run {w : Walker} {depth : Nat} {blocks : List Block}
    {out : List Finding} (h : DepthFirst w depth blocks out) :
    ∀ below : List Frame, ∃ rounds,
      Run w (⟨depth, blocks⟩ :: below) rounds below ∧ reports rounds = out := by
  -- A block that puts nothing on the stack takes one round of its own.
  have step {depth : Nat} {blocks : List Block} {out : List Finding}
      (block : Block) (r : Round)
      (hround : ∀ below, w.round (⟨depth, block :: blocks⟩ :: below) =
        some (r, ⟨depth, blocks⟩ :: below))
      (ih : ∀ below, ∃ rounds, Run w (⟨depth, blocks⟩ :: below) rounds below ∧
        reports rounds = out) (below : List Frame) :
      ∃ rounds, Run w (⟨depth, block :: blocks⟩ :: below) rounds below ∧
        reports rounds = reports [r] ++ out := by
    obtain ⟨rounds, hrun, rfl⟩ := ih below
    exact ⟨r :: rounds, .next (hround below) hrun, reports_cons ..⟩
  induction h with
  | done depth => exact fun below => ⟨[.leave], .next rfl (.here below), rfl⟩
  | code info literal _ ih =>
      exact step (.code info literal) (.report (.code ⟨parseTags info, literal⟩))
        (fun _ => rfl) ih
  | @excluded depth blocks out literal hw _ ih =>
      exact step (.html literal) .pass
        (fun _ => by rw [round, lookInside_excluded hw]) ih
  | @plain depth blocks out literal hi _ ih =>
      exact step (.html literal) .pass
        (fun _ => by rw [round, lookInside_plain hi]) ih
  | @tooDeep depth limit blocks out literal interior hw hi hm hd _ ih =>
      exact step (.html literal) (.report (.tooDeep limit))
        (fun _ => by rw [round, lookInside_tooDeep hw hi hm hd]) ih
  | @inside depth blocks inner out literal interior hw hi hm _ _ ihin ih =>
      intro below
      obtain ⟨within, hwithin, rfl⟩ := ihin (⟨depth, blocks⟩ :: below)
      obtain ⟨rounds, hrun, rfl⟩ := ih below
      have henter : w.round (⟨depth, .html literal :: blocks⟩ :: below) =
          some (.enter interior, .ofText (depth + 1) interior ::
            ⟨depth, blocks⟩ :: below) := by
        rw [round, lookInside_inside hw hi hm]
      refine ⟨.enter interior :: (within ++ rounds),
        .next henter (hwithin.trans hrun), ?_⟩
      rw [reports_cons, reports_append]
      rfl

/-- From every document the loop comes to its end, having reported the walk. -/
theorem exists_run_walk (w : Walker) (document : Text) : ∃ rounds,
    Run w [.ofText 0 document] rounds [] ∧ reports rounds = w.walk document :=
  (depthFirst_iff.2 (walk_eq_found w document)).run []

/-- The walk is the depth-first result of the document. The loop ends with it
reported, and from whatever stack of half-consumed fragments it goes on, what
its rounds report comes before the results of what they leave: no branch that
is passed over, left out or entered loses, repeats or moves anything that is
pending elsewhere. Visits and warnings are two selections from one sequence, so
this orders them among themselves and against each other. -/
theorem walk_depthFirst (w : Walker) (document : Text) :
    (∀ out, DepthFirst w 0 (parseBlocks document) out ↔ out = w.walk document) ∧
    (∃ rounds, Run w [.ofText 0 document] rounds [] ∧
      reports rounds = w.walk document) ∧
    ∀ first rounds last rest, Run w first rounds last →
      (Results w first (reports rounds ++ rest) ↔ Results w last rest) := by
  refine ⟨fun out => ?_, exists_run_walk w document, ?_⟩
  · rw [depthFirst_iff, walk_eq_found]
  · intro first rounds last rest hrun
    rw [results_iff, results_iff, hrun.ahead_eq, List.append_cancel_left_eq]

/-- A document that is one comment with one code block. -/
def oneComment : Text := "<!--\n```a\nx\n```\n-->\n".toList

/-- What that comment has inside. -/
def oneInterior : Text := "\n```a\nx\n```\n".toList

/-- The first round enters the comment, and the block is still to come. -/
theorem walk_depthFirst_oneComment :
    DepthFirst {} 0 (parseBlocks oneComment) [.code ⟨[['a']], ['x', '\n']⟩] ∧
    Run {} [.ofText 0 oneComment] [.enter oneInterior]
      [.ofText 1 oneInterior, ⟨0, []⟩] ∧
    (Results {} [.ofText 0 oneComment] [.code ⟨[['a']], ['x', '\n']⟩] ↔
      Results {} [.ofText 1 oneInterior, ⟨0, []⟩]
        [.code ⟨[['a']], ['x', '\n']⟩]) := by
  have hrun : Run {} [.ofText 0 oneComment] [.enter oneInterior]
      [.ofText 1 oneInterior, ⟨0, []⟩] := .next (by decide +kernel) (.here _)
  refine ⟨?_, hrun, ?_⟩
  · exact ((walk_depthFirst {} oneComment).1 _).2 (by decide +kernel)
  · exact (walk_depthFirst {} oneComment).2.2 _ _ _ _ hrun

end Tangle.Walker
