import Tangle.Proofs.Flattening

/-!
# Limits on the depth, and documents without their comments

A limit, and leaving comments out altogether, are meant to keep a walk away from
blocks that the author has enclosed too deep. What the walk goes by is reached
depth, and that is smaller for a block behind the end of an inner comment. So
the limit keeps what it is meant to keep away if and only if no such block has
come up far enough to pass it.
-/

namespace Tangle.Walker

/-- With a limit the walk visits the blocks whose reached depth is within it,
and without comments those whose reached depth is zero, in the order in which
they are written. These are the blocks that as few comments enclose if and only
if none of them owes its place to the end of an inner comment. -/
theorem walk_render_upTo (f : Forest) (limit : Nat) (maxDepth : Option Nat) :
    (visits (walk ⟨true, some limit⟩ f.render) =
        f.upTo Forest.Placed.reached limit ∧
      (visits (walk ⟨true, some limit⟩ f.render) =
        f.upTo Forest.Placed.written limit ↔
        ∀ p ∈ f.placed, p.reached ≤ limit → p.written ≤ limit)) ∧
    visits (walk ⟨false, maxDepth⟩ f.render) = f.upTo Forest.Placed.reached 0 ∧
      (visits (walk ⟨false, maxDepth⟩ f.render) = f.upTo Forest.Placed.written 0 ↔
        ∀ p ∈ f.placed, p.reached = 0 → p.written = 0) := by
  have hlimited : visits (walk ⟨true, some limit⟩ f.render) =
      f.upTo Forest.Placed.reached limit := visits_walk ⟨true, some limit⟩ f
  have hexcluded : visits (walk ⟨false, maxDepth⟩ f.render) =
      f.upTo Forest.Placed.reached 0 := visits_walk ⟨false, maxDepth⟩ f
  refine ⟨⟨hlimited, ?_⟩, hexcluded, ?_⟩
  · rw [hlimited]
    exact f.upTo_reached_eq_iff limit
  · rw [hexcluded, f.upTo_reached_eq_iff 0]
    simp only [Nat.le_zero]

/-- A block behind an inner comment, inside an outer one. -/
def behindInner : Forest :=
  .comment
    (.comment .nil <| .block
      { width := 3
        tags := [['a']]
        lines := [['x']]
        three_le_width := Nat.le_refl 3
        tags_ne_nil := by decide
        tags_plain := List.forall_mem_singleton.2 (List.forall_mem_singleton.2 rfl)
        tags_closing := by decide
        lines_plain := by decide
        lines_closing := by decide
        lines_inside := by
          intro line hline
          rw [List.mem_singleton.1 hline]
          exact not_closesFence (List.mem_cons_self ..) (by decide) (by decide) }
      .nil)
    .nil

/-- Two comments enclose the block, and it is visited all the same, with
comments left out and with a limit of zero. -/
theorem visits_behindInner :
    behindInner.render = "<!--\n<!--\n-->\n```a\nx\n```\n\n-->\n".toList ∧
    behindInner.upTo Forest.Placed.written 0 = [] ∧
    visits (walk ⟨false, none⟩ behindInner.render) = [⟨[['a']], "x\n".toList⟩] ∧
    visits (walk ⟨true, some 0⟩ behindInner.render) =
      [⟨[['a']], "x\n".toList⟩] := by
  refine ⟨rfl, rfl, ?_, ?_⟩
  · rw [visits_walk]
    rfl
  · rw [visits_walk]
    rfl

end Tangle.Walker
