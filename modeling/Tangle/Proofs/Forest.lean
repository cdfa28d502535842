import Tangle.Walk

/-!
# Documents made of code blocks and comments

A forest is what an author has in mind who writes code blocks and comments
around them, to any depth: every comment holds a forest of its own. This file
has the forests, the text in which one is written down, and two ways to say how
deep a block lies in it.

Written depth counts the comments around the block. Reached depth is what is
left of that count when a comment ends at the first closing delimiter, as it
does for a Markdown parser, whichever comment the delimiter was meant for. Then
the end of an inner comment ends all those around it, and a block behind it
lies as deep as the comments that have been opened since. The two agree on a
block as long as no comment ends between the block and the beginning of the
outermost comment around it.
-/

namespace Tangle

/-- Lines as they stand in a text, each with its line end. -/
def unlines (lines : List Text) : Text := lines.flatMap (· ++ ['\n'])

/-- Whether the line ends a code block that `width` backticks have opened: it
has at most three spaces, then at least as many backticks, and nothing but
spaces behind them. -/
def ClosesFence (width : Nat) (line : Text) : Prop :=
  ∃ indent run trailing, indent ≤ 3 ∧ width ≤ run ∧
    line = Text.spaces indent ++ List.replicate run '`' ++ Text.spaces trailing

theorem not_closesFence {width : Nat} {line : Text} {c : Char} (hmem : c ∈ line)
    (hspace : c ≠ ' ') (htick : c ≠ '`') : ¬ ClosesFence width line := by
  rintro ⟨indent, run, trailing, -, -, rfl⟩
  rcases List.mem_append.1 hmem with hmem | hmem
  · rcases List.mem_append.1 hmem with hmem | hmem
    · exact hspace (List.eq_of_mem_replicate hmem)
    · exact htick (List.eq_of_mem_replicate hmem)
  · exact hspace (List.eq_of_mem_replicate hmem)

/-- The control characters. -/
def isControl (c : Char) : Bool := c < ' ' || ('\x7f' ≤ c && c < '\u00a0')

/-- The characters a tag is written with, where nothing has to be escaped. -/
def isTagChar (c : Char) : Bool :=
  !isBlank c && !isControl c && c ≠ '`' && c ≠ '\\' && c ≠ '&'

/-- A fenced code block that can stand anywhere: its first and its last line
say what they seem to say, and no comment can end inside it. -/
structure Fence where
  /-- How many backticks open and close the block. -/
  width : Nat
  tags : List Text
  /-- The lines between the fences, without their line ends. -/
  lines : List Text
  three_le_width : 3 ≤ width
  tags_ne_nil : ∀ tag ∈ tags, tag ≠ []
  tags_plain : ∀ tag ∈ tags, ∀ c ∈ tag, isTagChar c = true
  tags_closing : ∀ tag ∈ tags, Comment.closing.occursIn tag = false
  lines_plain : ∀ line ∈ lines, '\r' ∉ line ∧ '\n' ∉ line ∧ '\x00' ∉ line
  lines_closing : ∀ line ∈ lines, Comment.closing.occursIn line = false
  lines_inside : ∀ line ∈ lines, ¬ ClosesFence width line

namespace Fence

/-- The backticks above and below the block. -/
def mark (fence : Fence) : Text := List.replicate fence.width '`'

/-- The words behind the opening fence. -/
def info (fence : Fence) : Text := [' '].intercalate fence.tags

/-- The block up to its closing fence, of which the line end is missing. -/
def core (fence : Fence) : Text :=
  unlines ((fence.mark ++ fence.info) :: fence.lines) ++ fence.mark

/-- The code block that extraction is meant to see. -/
def visit (fence : Fence) : Visit := ⟨fence.tags, unlines fence.lines⟩

end Fence

/-- Code blocks and comments, one after the other and one inside the other. -/
inductive Forest where
  | nil
  | block (fence : Fence) (rest : Forest)
  | comment (children rest : Forest)

namespace Forest

/-- The document in which a forest is written down. A blank line follows every
code block. -/
def render : Forest → Text
  | nil => []
  | block fence rest => fence.core ++ "\n\n".toList ++ rest.render
  | comment children rest =>
    Comment.opening ++ ['\n'] ++ children.render ++ Comment.closing ++ ['\n'] ++
      rest.render

/-- The code blocks in the order in which they are written. -/
def fences : Forest → List Fence
  | nil => []
  | block fence rest => fence :: rest.fences
  | comment children rest => children.fences ++ rest.fences

/-- A code block with its two depths. -/
structure Placed where
  fence : Fence
  /-- How many comments enclose the block. -/
  written : Nat
  /-- How many of them have been opened since a comment was closed last. -/
  reached : Nat

/-- The code blocks with their depths, in a place that lies `written` comments
deep, of which the innermost `reached` have not seen a comment end. -/
def placedIn (written reached : Nat) : Forest → List Placed
  | nil => []
  | block fence rest => ⟨fence, written, reached⟩ :: rest.placedIn written reached
  | comment children rest =>
    children.placedIn (written + 1) (reached + 1) ++ rest.placedIn written 0

/-- The code blocks of a document with their depths. -/
def placed (f : Forest) : List Placed := f.placedIn 0 0

/-- The code blocks whose depth, counted in one of the two ways, is at most
`limit`. -/
def upTo (depth : Placed → Nat) (limit : Nat) (f : Forest) : List Visit :=
  (f.placed.filter fun p => depth p ≤ limit).map fun p => p.fence.visit

theorem map_fence_placedIn (f : Forest) : ∀ written reached : Nat,
    (f.placedIn written reached).map Placed.fence = f.fences := by
  induction f with
  | nil => exact fun _ _ => rfl
  | block fence rest ih =>
      intro written reached
      rw [placedIn, List.map_cons, ih, fences]
  | comment children rest ihchildren ihrest =>
      intro written reached
      rw [placedIn, List.map_append, ihchildren, ihrest, fences]

theorem reached_le_written (f : Forest) : ∀ {written reached : Nat},
    reached ≤ written → ∀ p ∈ f.placedIn written reached,
    p.reached ≤ p.written := by
  induction f with
  | nil =>
      intro written reached _ p hp
      cases hp
  | block fence rest ih =>
      intro written reached h p hp
      rcases List.mem_cons.1 hp with rfl | hp
      · exact h
      · exact ih h p hp
  | comment children rest ihchildren ihrest =>
      intro written reached h p hp
      rcases List.mem_append.1 hp with hp | hp
      · exact ihchildren (Nat.succ_le_succ h) p hp
      · exact ihrest (Nat.zero_le _) p hp

/-- Reached depth lets more blocks through. It lets the same ones through if
and only if each of them passes by its written depth too. -/
theorem upTo_reached_eq_iff (f : Forest) (limit : Nat) :
    f.upTo Placed.reached limit = f.upTo Placed.written limit ↔
      ∀ p ∈ f.placed, p.reached ≤ limit → p.written ≤ limit := by
  have hle : ∀ p ∈ f.placed, p.reached ≤ p.written :=
    f.reached_le_written (Nat.le_refl 0)
  constructor
  · intro h
    have hfilter : f.placed.filter (fun p => p.written ≤ limit) =
        (f.placed.filter fun p => p.reached ≤ limit).filter
          fun p => p.written ≤ limit := by
      rw [List.filter_filter]
      refine List.filter_congr fun p hp => ?_
      have hp := hle p hp
      rw [← Bool.decide_and, decide_eq_decide]
      omega
    have hlength := congrArg List.length h
    rw [upTo, upTo, List.length_map, List.length_map, hfilter, eq_comm,
      List.length_filter_eq_length_iff] at hlength
    intro p hp hreached
    simpa using hlength p (List.mem_filter.2 ⟨hp, by simpa using hreached⟩)
  · intro h
    have hfilter : f.placed.filter (fun p => p.reached ≤ limit) =
        f.placed.filter fun p => p.written ≤ limit := by
      refine List.filter_congr fun p hp => ?_
      rw [decide_eq_decide]
      exact ⟨h p hp, Nat.le_trans (hle p hp)⟩
    rw [upTo, hfilter, upTo]

end Forest

end Tangle
