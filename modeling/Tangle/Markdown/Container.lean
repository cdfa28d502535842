import Tangle.Markdown.Cursor

/-!
# Open containers

Block quotes, lists, list items and footnote definitions hold other blocks. The parser keeps those
that are open, from the outermost inwards, and the two facts about blank lines that decide when a
list item ends. Every line first finds out how many of the open containers it continues.
-/

namespace Tangle.Markdown

inductive Container where
  | quote
  /-- A list whose items all begin with the same marker. -/
  | list (marker : Char) (tight : Bool)
  /-- A list item whose content is indented by `indent` columns. -/
  | item (indent : Nat)
  | footnote
  deriving DecidableEq, Repr

namespace Container

/-- The cursor behind what the line has to begin with to stay in the container. -/
def continue? (cur : Cursor) : Container → Option Cursor
  | .list _ _ => some cur
  | .quote => ((cur.skip 3).2.char? '>').map fun c => (c.skip 1).2
  | .item n =>
    if (cur.skip n).1 = 0 || (cur.skip n).2.atLineEnd then some (cur.skip n).2 else none
  | .footnote =>
    if (cur.skip 4).1 = 0 || (cur.skip 4).2.atLineEnd then some (cur.skip 4).2 else none

/-- How many of the containers the line continues, and the cursor behind the last of them. -/
def continued : List Container → Cursor → Nat × Cursor
  | [], cur => (0, cur)
  | c :: cs, cur =>
    match c.continue? cur with
    | none => (0, cur)
    | some cur' => ((continued cs cur').1 + 1, (continued cs cur').2)

/-- Whether the line continues all the containers. -/
def allContinued (cs : List Container) (line : Text) : Bool :=
  (continued cs (.start line)).1 = cs.length

/-- The cursor behind the containers that the line continues. -/
def inside (cs : List Container) (line : Text) : Cursor := (continued cs (.start line)).2

theorem continue?_length_le {cur cur' : Cursor} {c : Container} (h : c.continue? cur = some cur') :
    cur'.rest.length ≤ cur.rest.length := by
  cases c with
  | list => simp [continue?] at h; simp [h]
  | quote =>
    obtain ⟨d, hd, rfl⟩ := Option.map_eq_some_iff.1 h
    have := Cursor.char?_length_lt hd
    have := Cursor.skip_length_le 3 cur
    have := Cursor.skip_length_le 1 d
    omega
  | item n =>
    have := Cursor.skip_length_le n cur
    simp only [continue?] at h
    split at h <;> simp at h
    subst h; exact this
  | footnote =>
    have := Cursor.skip_length_le 4 cur
    simp only [continue?] at h
    split at h <;> simp at h
    subst h; exact this

theorem continued_length_le (cs : List Container) (cur : Cursor) :
    (continued cs cur).2.rest.length ≤ cur.rest.length := by
  induction cs generalizing cur with
  | nil => simp [continued]
  | cons c cs ih =>
    unfold continued
    split
    · simp
    · rename_i cur' h
      exact Nat.le_trans (ih cur') (continue?_length_le h)

theorem inside_length_le (cs : List Container) (line : Text) :
    (inside cs line).rest.length ≤ line.length := continued_length_le ..

end Container

/-- What the parser knows between two lines. -/
structure State where
  /-- The open containers, from the outermost inwards. -/
  containers : List Container
  /-- Whether the last list item began with a blank rest of line and has had no content yet. -/
  emptyItem : Bool
  /-- Whether a blank line has just gone by. -/
  lastBlank : Bool
  deriving DecidableEq, Repr

namespace State

def initial : State := ⟨[], false, false⟩

/-- The innermost open container. -/
def top? (st : State) : Option Container := st.containers.getLast?

/-- Opens a container inside the others. -/
def push (c : Container) (st : State) : State := { st with containers := st.containers ++ [c] }

/-- Exchanges the innermost container. -/
def setTop (c : Container) (st : State) : State :=
  { st with containers := st.containers.dropLast ++ [c] }

/-- Closes the innermost container. A tight list takes the memory of an empty item with it. -/
def pop (st : State) : State :=
  match st.top? with
  | some (.list _ true) => { st with containers := st.containers.dropLast, emptyItem := false }
  | _ => { st with containers := st.containers.dropLast }

/-- Closes all but the outermost `n` containers. -/
def popTo (n : Nat) (st : State) : State := Nat.repeat pop (st.containers.length - n) st

/-- Ends an item that began with a blank line if another blank line follows it. -/
def finishEmptyItem (st : State) : State :=
  match st.top? with
  | some (.item _) =>
    if st.emptyItem && st.lastBlank then { st.pop with emptyItem := false }
    else { st with emptyItem := false }
  | _ => { st with emptyItem := false }

/-- Notes that a blank line separates the blocks of the list that holds the innermost container. -/
def loosen (cs : List Container) : List Container :=
  match cs.reverse with
  | c :: .list marker _ :: outer => (c :: .list marker false :: outer).reverse
  | _ => cs

/-- Closes the list that the next block does not belong to. -/
def finishList (st : State) : State :=
  let st := st.finishEmptyItem
  let st := match st.top? with
    | some (.list _ _) => st.pop
    | _ => st
  if st.lastBlank then { st with containers := loosen st.containers, lastBlank := false } else st

/-- Makes the innermost container a list of items with this marker, the open one if it fits. -/
def continueList (marker : Char) (st : State) : State :=
  let st := st.finishEmptyItem
  let fresh := { st.finishList.push (.list marker true) with lastBlank := false }
  match st.top? with
  | some (.list m tight) =>
    if m = marker then
      if st.lastBlank then { st.setTop (.list m false) with lastBlank := false }
      else st.setTop (.list m tight)
    else fresh
  | _ => fresh

/-- Takes note of a blank line. An item that began blank can only be continued by its content. -/
def noteBlank (st : State) : State :=
  match st.top? with
  | some .quote => st
  | some (.item _) =>
    if st.emptyItem then { st.setTop (.item 0) with lastBlank := true }
    else { st with lastBlank := true }
  | _ => { st with lastBlank := true }

end State

end Tangle.Markdown
