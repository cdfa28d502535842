import Tangle.Proofs.BlockCollection

/-!
# A document's blocks are its leaves

`parseBlocks` sends each leaf block through a run of events and collects the
blocks from the events again. What comes out is the leaf with its lines put
together: the events of one leaf are closed before those of the next begin, so
the collector never holds more than one block. With that lemma every question
about `parseBlocks` is a question about `leaves`, which goes from one block of
the text to the next.
-/

namespace Tangle.Markdown

/-- The text of a leaf: its lines put together. -/
def Leaf.body : Leaf → Text
  | .code _ lines => lines.flatten
  | .html lines => lines.flatten

/-- The block that a leaf becomes. -/
def Leaf.block : Leaf → Block
  | .code info lines => .code (info.getD []) lines.flatten
  | .html lines => .html lines.flatten

/-- The text that a block holds. -/
def Block.literal : Block → Text
  | .code _ literal => literal
  | .html literal => literal

@[simp] theorem Leaf.literal_block (leaf : Leaf) :
    leaf.block.literal = leaf.body := by
  cases leaf <;> rfl

namespace Block

theorem collect_leaf (leaf : Leaf) (es : List Event) :
    collect none (leaf.events ++ es) = leaf.block :: collect none es := by
  -- the lines of a leaf stand between the start and the end of its kind
  cases leaf with
  | code info lines =>
      have hlines : Unbracketed (lines.map .text) := unbracketed_map (fun _ => rfl) lines
      rw [Leaf.events, List.cons_append, List.cons_append, List.append_assoc]
      refine (collect_pair hlines rfl rfl none es).trans ?_
      simp [Leaf.block, List.flatMap_map, Event.content]
  | html lines =>
      have hlines : Unbracketed (lines.map .html) := unbracketed_map (fun _ => rfl) lines
      rw [Leaf.events, List.cons_append, List.cons_append, List.append_assoc]
      refine (collect_pair hlines rfl rfl none es).trans ?_
      simp [Leaf.block, List.flatMap_map, Event.content]

theorem collect_leaves (ls : List Leaf) :
    collect none (ls.flatMap Leaf.events) = ls.map Leaf.block := by
  induction ls with
  | nil => rfl
  | cons leaf ls ih =>
      rw [List.flatMap_cons, collect_leaf, ih, List.map_cons]

end Block

theorem parseBlocks_eq_map (s : Text) :
    parseBlocks s = (leaves .initial s).map Leaf.block :=
  Block.collect_leaves _

/-- The leaves of a text that is not empty: the one that begins it, if there is
one, and those of the text behind it. -/
theorem leaves_of_nextBlock {st st' : State} {c : Char} {s rest : Text}
    {leaf? : Option Leaf} (h : nextBlock st (c :: s) = (leaf?, st', rest)) :
    leaves st (c :: s) = leaf?.toList ++ leaves st' rest := by
  rw [leaves, h]

theorem leaves_nil (st : State) : leaves st [] = [] := by rw [leaves]

end Tangle.Markdown
