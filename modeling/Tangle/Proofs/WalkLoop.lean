import Tangle.Proofs.Ink
import Tangle.Proofs.Interior
import Tangle.Walk

/-!
# The loop behind the walk, one round at a time

The loop keeps a stack of fragments, each with the blocks of it that have not
been looked at yet, the innermost fragment on top. A round looks at the top
only: it puts away a fragment that is used up, or takes the next block of one
that is not. `Run` strings rounds together and says nothing about how many
there will be, so that termination is a theorem about it and not part of it.

What bounds the loop is the number of angle brackets in the blocks on the
stack. Lengths would not do, because a tab used up in part makes a literal
longer than its source. Brackets are neither made up nor shared between
literals, and every interior has lost a delimiter with a bracket in it
(`angles_interior_lt`).
-/

namespace Tangle

open Markdown (Block parseBlocks)

/-! ## Angle brackets -/

@[simp] theorem angles_append (s t : Text) :
    angles (s ++ t) = angles s + angles t := List.countP_append

theorem angles_le_of_sublist {s t : Text} (h : s.Sublist t) :
    angles s ≤ angles t := h.countP_le

/-- No bracket is blank. -/
theorem angles_ink (s : Text) : angles (ink s) = angles s := by
  rw [angles, ink, List.countP_filter]
  refine List.countP_congr fun c _ => ?_
  simp only [Bool.and_eq_true, Bool.or_eq_true, decide_eq_true_eq,
    Bool.not_eq_true', and_iff_left_iff_imp]
  rintro (rfl | rfl) <;> decide

/-- The brackets of a run of blocks. -/
def bracketsOf (blocks : List Block) : Nat :=
  angles (blocks.flatMap Block.literal)

@[simp] theorem bracketsOf_cons (block : Block) (blocks : List Block) :
    bracketsOf (block :: blocks) = angles block.literal + bracketsOf blocks := by
  rw [bracketsOf, List.flatMap_cons, angles_append, bracketsOf]

theorem angles_literal_le {block : Block} {blocks : List Block}
    (h : block ∈ blocks) : angles block.literal ≤ bracketsOf blocks :=
  angles_le_of_sublist
    (List.sublist_flatten_of_mem (List.mem_map_of_mem (f := Block.literal) h))

/-- The literals of a fragment share no bracket. -/
theorem bracketsOf_parseBlocks_le (s : Text) :
    bracketsOf (parseBlocks s) ≤ angles s := by
  rw [bracketsOf, ← angles_ink, ← angles_ink s]
  exact angles_le_of_sublist (Markdown.ink_parseBlocks s)

theorem angles_interior_lt {literal interior : Text}
    (h : Comment.interior? literal = some interior) :
    angles interior < angles literal :=
  Comment.interior?_lt angles angles_append (by decide) (by decide) h

namespace Walker

theorem interior?_of_lookInside {w : Walker} {depth : Nat}
    {literal interior : Text}
    (h : w.lookInside depth literal = .fragment interior) :
    Comment.interior? literal = some interior := by
  unfold lookInside at h
  split at h
  · cases hi : Comment.interior? literal with
    | none => rw [hi] at h; cases h
    | some s =>
        rw [hi] at h
        cases hm : w.maxDepth with
        | none => rw [hm] at h; cases h; rfl
        | some limit =>
            simp only [hm] at h
            split at h <;> cases h
            rfl
  · cases h

/-! ## Rounds -/

/-- A fragment on the stack: how many comments enclose it, and the blocks of it
that are still to be looked at. -/
structure Frame where
  depth : Nat
  blocks : List Block
  deriving DecidableEq

/-- A fragment of which nothing has been looked at. -/
def Frame.ofText (depth : Nat) (s : Text) : Frame := ⟨depth, parseBlocks s⟩

/-- What happens in one round. -/
inductive Round where
  /-- The fragment on top is used up and goes. -/
  | leave
  /-- A block has nothing inside and is passed over. -/
  | pass
  | report (finding : Finding)
  /-- The interior of a comment is put on top. -/
  | enter (interior : Text)
  deriving DecidableEq

/-- What the rounds report. -/
def reports (rounds : List Round) : List Finding :=
  rounds.filterMap fun
    | .report finding => some finding
    | _ => none

/-- The interiors that the rounds put on the stack. -/
def entered (rounds : List Round) : List Text :=
  rounds.filterMap fun
    | .enter interior => some interior
    | _ => none

theorem reports_append (rounds more : List Round) :
    reports (rounds ++ more) = reports rounds ++ reports more :=
  List.filterMap_append

theorem reports_cons (r : Round) (rounds : List Round) :
    reports (r :: rounds) = reports [r] ++ reports rounds :=
  reports_append [r] rounds

theorem entered_cons (r : Round) (rounds : List Round) :
    entered (r :: rounds) = entered [r] ++ entered rounds := by
  rw [entered, entered, entered, ← List.filterMap_append, List.singleton_append]

/-- The next round and the stack behind it. With an empty stack the loop ends. -/
def round (w : Walker) : List Frame → Option (Round × List Frame)
  | [] => none
  | ⟨_, []⟩ :: below => some (.leave, below)
  | ⟨depth, .code info literal :: blocks⟩ :: below =>
    some (.report (.code ⟨parseTags info, literal⟩), ⟨depth, blocks⟩ :: below)
  | ⟨depth, .html literal :: blocks⟩ :: below =>
    match w.lookInside (depth + 1) literal with
    | .nothing => some (.pass, ⟨depth, blocks⟩ :: below)
    | .tooDeep limit => some (.report (.tooDeep limit), ⟨depth, blocks⟩ :: below)
    | .fragment s =>
      some (.enter s, .ofText (depth + 1) s :: ⟨depth, blocks⟩ :: below)

/-- The loop gets from one stack to another by these rounds. -/
inductive Run (w : Walker) : List Frame → List Round → List Frame → Prop
  | here (stack : List Frame) : Run w stack [] stack
  | next {stack stack' last : List Frame} {r : Round} {rounds : List Round}
      (h : w.round stack = some (r, stack')) (hrun : Run w stack' rounds last) :
      Run w stack (r :: rounds) last

namespace Run

variable {w : Walker} {first middle last : List Frame}

theorem trans {rounds more : List Round} (h₁ : Run w first rounds middle)
    (h₂ : Run w middle more last) : Run w first (rounds ++ more) last := by
  induction h₁ with
  | here stack => exact h₂
  | next h _ ih => exact .next h (ih h₂)

/-- Rounds are a function of the stack, so whatever has been run is the
beginning of the run that ends the loop. -/
theorem remainder {rounds all : List Round} (h₁ : Run w first rounds middle)
    (h₂ : Run w first all []) :
    ∃ more, all = rounds ++ more ∧ Run w middle more [] := by
  induction h₁ generalizing all with
  | here stack => exact ⟨all, rfl, h₂⟩
  | next h _ ih =>
      cases h₂ with
      | here => cases h
      | next h' hrun =>
          rw [h] at h'
          cases h'
          obtain ⟨more, rfl, hmore⟩ := ih hrun
          exact ⟨more, rfl, hmore⟩

end Run

end Walker

end Tangle
