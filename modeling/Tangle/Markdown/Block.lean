import Tangle.Markdown.Leaf
import Tangle.Markdown.Opening
import Tangle.Markdown.Paragraph

/-!
# The blocks of a document

The parser goes through a document from one block to the next. Each leaf block it keeps becomes a
bracketed run of events, and a fold over the events of the whole document collects the blocks.
-/

namespace Tangle.Markdown

/-- Reads on after the link definitions that begin here. Behind them stands the text of a paragraph,
unless the definitions end the run of lines. -/
def afterDefinitions (cs : List Container) (s : Text) : Text :=
  match _h : LinkDefinition.after? cs s with
  | none => Paragraph.after cs s
  | some rest =>
    let next := (afterBlankLine? rest).getD rest
    let ahead := (Container.inside cs next).skip 4
    if ahead.1 ≠ 0 && interruptsParagraph cs (Container.allContinued cs next) ahead.2.rest then next
    else afterDefinitions cs ahead.2.skipAll.rest
termination_by s.length
decreasing_by
  have h₁ := LinkDefinition.after?_length_lt _h
  have h₂ := afterBlankLine?_getD_length_le rest
  have h₃ := Container.inside_length_le cs ((afterBlankLine? rest).getD rest)
  have h₄ := Cursor.skip_length_le 4 (Container.inside cs ((afterBlankLine? rest).getD rest))
  have h₅ := Cursor.skipAll_length_le
    ((Container.inside cs ((afterBlankLine? rest).getD rest)).skip 4).2
  omega

theorem afterDefinitions_length_le (cs : List Container) (s : Text) :
    (afterDefinitions cs s).length ≤ s.length - 1 := by
  fun_induction afterDefinitions cs s with
  | case1 s => exact Paragraph.after_length_le cs s
  | case2 s rest h next =>
    have h₁ := LinkDefinition.after?_length_lt h
    have h₂ : next.length ≤ _ := afterBlankLine?_getD_length_le rest
    omega
  | case3 s rest h next ahead _ ih =>
    have h₁ := LinkDefinition.after?_length_lt h
    have h₂ : next.length ≤ _ := afterBlankLine?_getD_length_le rest
    have h₃ := Container.inside_length_le cs next
    have h₄ : ahead.2.rest.length ≤ _ := Cursor.skip_length_le 4 (Container.inside cs next)
    have h₅ := Cursor.skipAll_length_le ahead.2
    omega

/-- Reads the leaf block, or the blank line, at a cursor behind all containers: the block if it is
kept, the state behind it, and the text behind it. -/
def leafBlock (st : State) (cur : Cursor) : Option Leaf × State × Text :=
  match afterBlankLine? cur.rest with
  | some next => (none, st.noteBlank, next)
  | none =>
    let (indent, ahead) := cur.indent 4
    let s := ahead.rest
    let closed := st.finishList
    let cs := closed.containers
    if indent = 4 then
      let (lines, rest) := Leaf.indented cs false ahead.owed s
      (some (.code none (Leaf.dropBlankEnd lines)),
        { closed with lastBlank := Leaf.endsBlank lines }, rest)
    else
      match htmlBlock? cs indent s with
      | some (lines, rest) => (some (.html lines), closed, rest)
      | none =>
        match afterThematicBreak? s with
        | some rest => (none, closed, rest)
        | none =>
          match afterHeadingMarks? s with
          | some rest => (none, closed, dropProseLine rest)
          | none =>
            match fence? s with
            | some (mark, width) =>
              let (info, body) := splitLine (s.drop width)
              let (lines, rest) := Leaf.fenced cs mark width indent body
              (some (.code (some (infoString info)) lines), closed, rest)
            | none => (none, closed, afterDefinitions cs s)
where
  /-- The lines of the HTML block that begins here, and what follows it. -/
  htmlBlock? (cs : List Container) (indent : Nat) : Text → Option (List Text × Text)
    | '<' :: s =>
      match Html.closing? s with
      | some closing => some (Leaf.htmlUntil cs closing indent ('<' :: s))
      | none =>
        if Html.startsBlockElement s || Html.startsLoneTag s then
          some (Leaf.htmlUntilBlank cs indent ('<' :: s))
        else none
    | _ => none

/-- Reads one block from the beginning of a line. -/
def nextBlock (st : State) (line : Text) : Option Leaf × State × Text :=
  let (kept, cur) := Container.continued st.containers (.start line)
  match Opened.ofLine (st.popTo kept) cur with
  | .leaf st cur => leafBlock st cur
  | .prose st s => (none, st, Paragraph.after st.containers s)
  | .nothing st next => (none, st, next)

theorem htmlBlock?_length_le {cs : List Container} {indent : Nat} {s rest : Text}
    {lines : List Text} (h : leafBlock.htmlBlock? cs indent s = some (lines, rest)) :
    rest.length ≤ s.length - 1 := by
  unfold leafBlock.htmlBlock? at h
  split at h
  · rename_i s
    split at h
    · rename_i closing _
      have := Leaf.htmlUntil_length_le cs closing indent ('<' :: s)
      rw [Option.some.inj h] at this
      exact this
    · split at h
      · have := Leaf.htmlUntilBlank_length_le cs indent ('<' :: s)
        rw [Option.some.inj h] at this
        exact this
      · cases h
  · cases h

theorem leafBlock_length_le (st : State) (cur : Cursor) :
    (leafBlock st cur).2.2.length ≤ cur.rest.length - 1 := by
  have ahead_le {indent : Nat} {ahead : Cursor} (h : cur.indent 4 = (indent, ahead)) :
      ahead.rest.length ≤ cur.rest.length := by
    have := Cursor.skip_length_le 4 cur
    rw [← show (cur.indent 4).2 = ahead by rw [h]]
    exact this
  fun_cases leafBlock st cur with
  | case1 next hb => exact afterBlankLine?_length_le hb
  | case2 _ ahead s closed cs lines rest hi ha =>
    have h₁ := ahead_le ha
    have h₂ := Leaf.indented_length_le cs false ahead.owed s
    rw [hi] at h₂
    have h₃ : rest.length ≤ ahead.rest.length - 1 := h₂
    show rest.length ≤ _
    omega
  | case3 _ indent ahead ha s closed cs _ lines rest hh =>
    have h₁ := ahead_le ha
    have h₂ : rest.length ≤ ahead.rest.length - 1 := htmlBlock?_length_le hh
    show rest.length ≤ _
    omega
  | case4 _ indent ahead ha s closed cs _ _ rest hr =>
    have h₁ := ahead_le ha
    have h₂ : rest.length ≤ ahead.rest.length - 1 := afterThematicBreak?_length_le hr
    show rest.length ≤ _
    omega
  | case5 _ indent ahead ha s closed cs _ _ _ rest hr =>
    have h₁ := ahead_le ha
    have h₂ : rest.length ≤ ahead.rest.length - 1 := afterHeadingMarks?_length_le hr
    have h₃ := dropProseLine_length_le rest
    show (dropProseLine rest).length ≤ _
    omega
  | case6 _ indent ahead ha s closed cs _ _ _ _ mark width _ info body hl lines rest hf =>
    have h₁ := ahead_le ha
    have h₂ := splitLine_length_le (ahead.rest.drop width)
    have h₃ := Leaf.fenced_length_le cs mark width indent body
    rw [hf] at h₃
    rw [show splitLine (ahead.rest.drop width) = (info, body) from hl, List.length_drop] at h₂
    have h₄ : body.length ≤ ahead.rest.length - width - 1 := h₂
    have h₅ : rest.length ≤ body.length := h₃
    show rest.length ≤ _
    omega
  | case7 _ indent ahead ha s closed cs =>
    have h₁ := ahead_le ha
    have h₂ : _ ≤ ahead.rest.length - 1 := afterDefinitions_length_le cs s
    show (afterDefinitions cs s).length ≤ _
    omega

theorem nextBlock_length_le (st : State) (line : Text) :
    (nextBlock st line).2.2.length ≤ line.length - 1 := by
  unfold nextBlock
  have h₁ := Container.continued_length_le st.containers (.start line)
  have h₂ := Opened.left_ofLine_le (st.popTo (Container.continued st.containers (.start line)).1)
    (Container.continued st.containers (.start line)).2
  have h₃ : (Cursor.start line).rest.length = line.length := rfl
  dsimp only
  split
  · rename_i st' cur h
    have h₄ := leafBlock_length_le st' cur
    rw [h, Opened.left] at h₂
    omega
  · rename_i st' s h
    have h₄ := Paragraph.after_length_le st'.containers s
    rw [h, Opened.left] at h₂
    show (Paragraph.after st'.containers s).length ≤ _
    omega
  · rename_i st' next h
    rw [h, Opened.left] at h₂
    show next.length ≤ _
    omega

/-- The leaf blocks that are kept, in document order. -/
def leaves (st : State) (s : Text) : List Leaf :=
  match s with
  | [] => []
  | c :: t =>
    (nextBlock st (c :: t)).1.toList ++
      leaves (nextBlock st (c :: t)).2.1 (nextBlock st (c :: t)).2.2
termination_by s.length
decreasing_by exact Nat.lt_succ_of_le (nextBlock_length_le st (c :: t))

/-- What the parser reports while it goes through a document. -/
inductive Event where
  | startCode (info : Option Text)
  | endCode
  | startHtml
  | endHtml
  | text (s : Text)
  | html (s : Text)
  /-- Anything else: other blocks, inline markup, breaks. -/
  | other
  deriving DecidableEq, Repr

/-- A leaf block as events, one for each line. -/
def Leaf.events : Leaf → List Event
  | .code info lines => .startCode info :: lines.map .text ++ [.endCode]
  | .html lines => .startHtml :: lines.map .html ++ [.endHtml]

/-- The events of a document. -/
def events (s : Text) : List Event := (leaves .initial s).flatMap Leaf.events

/-- A block that can matter to extraction. An indented code block has an empty info string. -/
inductive Block where
  | code (info : Text) (literal : Text)
  | html (literal : Text)
  deriving DecidableEq, Repr

/-- A block whose end has not come yet. -/
structure OpenBlock where
  /-- The block with a given literal. -/
  close : Text → Block
  /-- The pieces of its literal so far, the last one first. -/
  pieces : List Text := []

namespace OpenBlock

/-- Adds a piece to the literal. -/
def add (s : Text) (b : OpenBlock) : OpenBlock := { b with pieces := s :: b.pieces }

/-- The block that ends here. -/
def finish (b : OpenBlock) : Block := b.close b.pieces.reverse.flatten

end OpenBlock

namespace Block

/-- Collects blocks from events; `current` is the block that is open. -/
def collect (current : Option OpenBlock) : List Event → List Block
  | [] => []
  | .startCode info :: es => collect (some { close := .code (info.getD []) }) es
  | .startHtml :: es => collect (some { close := .html }) es
  | .text s :: es => collect (current.map (OpenBlock.add s)) es
  | .html s :: es => collect (current.map (OpenBlock.add s)) es
  | .endCode :: es => (current.map OpenBlock.finish).toList ++ collect none es
  | .endHtml :: es => (current.map OpenBlock.finish).toList ++ collect none es
  | .other :: es => collect current es

/-- The blocks that a run of events describes. -/
def ofEvents (es : List Event) : List Block := collect none es

end Block

/-- The code and HTML blocks of a Markdown document, in document order. -/
def parseBlocks (s : Text) : List Block := Block.ofEvents (events s)

end Tangle.Markdown
