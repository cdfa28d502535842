import Tangle.Proofs.WalkRefine

/-!
# The walk ends, and enters no more comments than there are brackets

Every comment that is entered pays with an angle bracket. The invariant is a
balance: the comments entered so far and the brackets in the blocks on the
stack never come to more than the brackets the stack held at the start. A round
that enters a comment takes its literal off the stack and puts the literals of
its interior there, which have fewer brackets together, because the parser
divides the brackets of a fragment among its literals and the delimiter that
was taken off held one. Every other round only takes blocks away.

The depth of a fragment grows by one with the comment that is entered, so it is
bounded by the same number.
-/

namespace Tangle.Walker

open Markdown (Block parseBlocks)

/-- The brackets of all blocks on a stack. -/
def stackBrackets (stack : List Frame) : Nat :=
  bracketsOf (stack.flatMap Frame.blocks)

theorem stackBrackets_cons (depth : Nat) (blocks : List Block)
    (below : List Frame) : stackBrackets (⟨depth, blocks⟩ :: below) =
      bracketsOf blocks + stackBrackets below := by
  simp [stackBrackets, bracketsOf]

/-- One round keeps the balance. -/
theorem balance_round {w : Walker} {stack stack' : List Frame} {r : Round}
    (h : w.round stack = some (r, stack')) :
    (entered [r]).length + stackBrackets stack' ≤ stackBrackets stack := by
  unfold round at h
  split at h
  · cases h
  · cases h
    rw [stackBrackets_cons]
    exact Nat.add_le_add_right (Nat.zero_le _) _
  · cases h
    rw [stackBrackets_cons, stackBrackets_cons, bracketsOf_cons]
    show 0 + _ ≤ _
    omega
  · rename_i depth literal blocks below
    rw [stackBrackets_cons, bracketsOf_cons]
    split at h <;> cases h
    · rw [stackBrackets_cons]
      show 0 + _ ≤ _
      omega
    · rw [stackBrackets_cons]
      show 0 + _ ≤ _
      omega
    · rename_i interior hlook
      have h₁ := bracketsOf_parseBlocks_le interior
      have h₂ : angles interior < angles (Block.html literal).literal :=
        angles_interior_lt (interior?_of_lookInside hlook)
      rw [Frame.ofText, stackBrackets_cons, stackBrackets_cons]
      show 1 + _ ≤ _
      omega

/-- A whole run keeps the balance. -/
theorem Run.balance {w : Walker} {first last : List Frame}
    {rounds : List Round} (h : Run w first rounds last) :
    (entered rounds).length + stackBrackets last ≤ stackBrackets first := by
  induction h with
  | here stack => exact Nat.le_of_eq (Nat.zero_add _)
  | @next stack stack' last r rounds h _ ih =>
      have hround := balance_round h
      rw [entered_cons, List.length_append]
      omega

theorem depth_round {w : Walker} {stack stack' : List Frame} {r : Round}
    {bound : Nat} (h : w.round stack = some (r, stack'))
    (hbound : ∀ frame ∈ stack, frame.depth ≤ bound) :
    ∀ frame ∈ stack', frame.depth ≤ bound + (entered [r]).length := by
  have keep {depth : Nat} {blocks blocks' : List Block} {below : List Frame}
      (hb : ∀ frame ∈ (⟨depth, blocks⟩ :: below : List Frame),
        frame.depth ≤ bound) :
      ∀ frame ∈ (⟨depth, blocks'⟩ :: below : List Frame), frame.depth ≤ bound := by
    intro frame hframe
    rcases List.mem_cons.1 hframe with rfl | hbelow
    · exact hb ⟨depth, blocks⟩ (List.mem_cons_self ..)
    · exact hb frame (List.mem_cons_of_mem _ hbelow)
  unfold round at h
  split at h
  · cases h
  · cases h
    exact fun frame hframe => hbound frame (List.mem_cons_of_mem _ hframe)
  · cases h
    exact keep hbound
  · rename_i depth literal blocks below
    split at h <;> cases h
    · exact keep hbound
    · exact keep hbound
    · rename_i interior _
      intro frame hframe
      rcases List.mem_cons.1 hframe with rfl | hbelow
      · exact Nat.add_le_add_right (hbound _ (List.mem_cons_self ..)) 1
      · exact Nat.le_add_right_of_le (keep hbound frame hbelow)

theorem Run.depth_le {w : Walker} {first last : List Frame}
    {rounds : List Round} (h : Run w first rounds last) : ∀ {bound : Nat},
    (∀ frame ∈ first, frame.depth ≤ bound) →
    ∀ frame ∈ last, frame.depth ≤ bound + (entered rounds).length := by
  induction h with
  | here stack => exact fun hbound => hbound
  | @next stack stack' last r rounds h _ ih =>
      intro bound hbound frame hframe
      have hlast := ih (depth_round h hbound) frame hframe
      rw [entered_cons, List.length_append]
      omega

/-- The walk of every document ends. Each interior has fewer brackets than the
fragment it was found in; the loop gets to the empty stack with the walk
reported, and since its rounds are determined by the stack, so does every run
that has been begun; and at no time have more comments been entered, or does a
fragment lie deeper, than the document has brackets. -/
theorem walk_terminates (w : Walker) (document : Text) :
    (∀ s literal interior, .html literal ∈ parseBlocks s →
      Comment.interior? literal = some interior → angles interior < angles s) ∧
    (∃ rounds, Run w [.ofText 0 document] rounds [] ∧
      reports rounds = w.walk document) ∧
    ∀ rounds stack, Run w [.ofText 0 document] rounds stack →
      (∃ more, Run w stack more []) ∧
      (entered rounds).length ≤ angles document ∧
      ∀ frame ∈ stack, frame.depth ≤ (entered rounds).length := by
  refine ⟨?_, exists_run_walk w document, ?_⟩
  · intro s literal interior hmem hi
    have h₁ := angles_interior_lt hi
    have h₂ : angles literal ≤ bracketsOf (parseBlocks s) :=
      angles_literal_le hmem
    have h₃ := bracketsOf_parseBlocks_le s
    omega
  · intro rounds stack hrun
    obtain ⟨all, hall, _⟩ := exists_run_walk w document
    obtain ⟨more, _, hmore⟩ := hrun.remainder hall
    refine ⟨⟨more, hmore⟩, ?_, ?_⟩
    · have hbalance := hrun.balance
      have hdocument : stackBrackets [.ofText 0 document] ≤ angles document := by
        rw [stackBrackets, List.flatMap_singleton]
        exact bracketsOf_parseBlocks_le document
      omega
    · intro frame hframe
      have hstart : ∀ frame ∈ [Frame.ofText 0 document], frame.depth ≤ 0 := by
        intro frame hframe
        rw [List.mem_singleton.1 hframe]
        exact Nat.le_refl 0
      have hdepth := hrun.depth_le hstart frame hframe
      omega

theorem walk_terminates_oneComment :
    (.html oneComment ∈ parseBlocks oneComment ∧
      Comment.interior? oneComment = some oneInterior ∧
      angles oneInterior < angles oneComment) ∧
    Run {} [.ofText 0 oneComment] [.enter oneInterior]
      [.ofText 1 oneInterior, ⟨0, []⟩] ∧
    (∃ more, Run {} [.ofText 1 oneInterior, ⟨0, []⟩] more []) ∧
    (entered [.enter oneInterior]).length ≤ angles oneComment ∧
    (Frame.ofText 1 oneInterior).depth ≤ (entered [.enter oneInterior]).length := by
  have hmem : .html oneComment ∈ parseBlocks oneComment := by decide +kernel
  have hi : Comment.interior? oneComment = some oneInterior := by decide +kernel
  have hrun : Run {} [.ofText 0 oneComment] [.enter oneInterior]
      [.ofText 1 oneInterior, ⟨0, []⟩] := .next (by decide +kernel) (.here _)
  have hwalk := walk_terminates {} oneComment
  obtain ⟨hmore, hentered, hdepth⟩ := hwalk.2.2 _ _ hrun
  exact ⟨⟨hmem, hi, hwalk.1 _ _ _ hmem hi⟩, hrun, hmore, hentered,
    hdepth _ (List.mem_cons_self ..)⟩

end Tangle.Walker
