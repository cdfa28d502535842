import Tangle.Markdown.Line

/-!
# Beginnings of raw HTML blocks

A raw HTML block is recognised by its first line. Five kinds of beginning name the text that ends
the block; a known block-level tag, or any complete tag alone on its line, begins a block that ends
at a blank line.
-/

namespace Tangle.Markdown

/-- The lower-case form of an ASCII letter; every other character is left alone. -/
def lowerAscii (c : Char) : Char := if 'A' ≤ c && c ≤ 'Z' then Char.ofNat (c.toNat + 32) else c

/-- What follows `p`, in whatever case its ASCII letters are written. -/
def dropPrefixIgnoringCase? (p : List Char) (s : Text) : Option Text :=
  if (s.take p.length).map lowerAscii = p then some (s.drop p.length) else none

namespace Html

def isLetter (c : Char) : Bool := ('a' ≤ c && c ≤ 'z') || ('A' ≤ c && c ≤ 'Z')
def isDigit (c : Char) : Bool := '0' ≤ c && c ≤ '9'

/-- The elements whose raw content runs to their own closing tag. -/
def rawElements : List String := ["pre", "style", "script", "textarea"]

/-- The block-level elements that begin a block ending at a blank line. -/
def blockElements : List String :=
  ["address", "article", "aside", "base", "basefont", "blockquote", "body", "caption", "center",
   "col", "colgroup", "dd", "details", "dialog", "dir", "div", "dl", "dt", "fieldset", "figcaption",
   "figure", "footer", "form", "frame", "frameset", "h1", "h2", "h3", "h4", "h5", "h6", "head",
   "header", "hr", "html", "iframe", "legend", "li", "link", "main", "menu", "menuitem", "nav",
   "noframes", "ol", "optgroup", "option", "p", "param", "search", "section", "summary", "table",
   "tbody", "td", "tfoot", "th", "thead", "title", "tr", "track", "ul"]

/-- The closing tag of a raw element, if the text after `<` opens one. -/
def rawClosing? (s : Text) : Option Text :=
  rawElements.findSome? fun name =>
    match dropPrefixIgnoringCase? name.toList s with
    | some [] => some ('<' :: '/' :: name.toList ++ ['>'])
    | some (c :: _) =>
      if isSpacing c || c = '>' then some ('<' :: '/' :: name.toList ++ ['>']) else none
    | none => none

/-- The text that ends the block, if the text after `<` begins one with a fixed ending. -/
def closing? (s : Text) : Option Text :=
  match rawClosing? s with
  | some e => some e
  | none =>
    match s with
    | '!' :: '-' :: '-' :: _ => some ['-', '-', '>']
    | '?' :: _ => some ['?', '>']
    | '!' :: '[' :: 'C' :: 'D' :: 'A' :: 'T' :: 'A' :: '[' :: _ => some [']', ']', '>']
    | '!' :: c :: _ => if isLetter c then some ['>'] else none
    | _ => none

/-- Whether the text after `<` begins with the tag of a block-level element. -/
def startsBlockElement (s : Text) : Bool :=
  let s := match s with
    | '/' :: s => s
    | s => s
  let isName c := isLetter c || isDigit c
  blockElements.contains (String.ofList ((s.takeWhile isName).map lowerAscii)) &&
    match s.dropWhile isName with
    | [] => true
    | ['/'] => false
    | '/' :: c :: _ => c = '>'
    | c :: _ => c = ' ' || c = '\t' || c = '\r' || c = '\n' || c = '>'

/-- What follows an attribute's value. A quoted one has to end on its line. -/
def afterValue? : Text → Option Text
  | [] => none
  | c :: s =>
    if c = '"' || c = '\'' then
      match s.dropWhile fun d => !(d = c || d = '\n' || d = '\r') with
      | d :: s => if d = c then some s else none
      | [] => none
    else if " =><`\n\r".toList.contains c then none
    else some ((c :: s).dropWhile fun d => !("'\" =><`\n\r".toList.contains d))

/-- What follows an attribute. -/
def afterAttribute? : Text → Option Text
  | [] => none
  | c :: s =>
    if isLetter c || c = '_' || c = ':' then
      let s := s.dropWhile fun d =>
        isLetter d || isDigit d || d = '_' || d = '.' || d = ':' || d = '-'
      match s.dropWhile isInlineSpacing with
      | '\n' :: _ => none
      | '\r' :: _ => none
      | '=' :: v =>
        match v.dropWhile isInlineSpacing with
        | '\n' :: _ => none
        | '\r' :: _ => none
        | v => afterValue? v
      | _ => some s
    else none

theorem afterValue?_length_le {s r : Text} (h : afterValue? s = some r) :
    r.length ≤ s.length := by
  unfold afterValue? at h
  split at h
  · cases h
  · rename_i c s
    split at h
    · split at h
      · rename_i d t ht
        split at h
        · cases h
          have := dropWhile_length_le (fun d => !(d = c || d = '\n' || d = '\r')) s
          rw [ht, List.length_cons] at this
          rw [List.length_cons]
          omega
        · cases h
      · cases h
    · split at h
      · cases h
      · cases h
        exact dropWhile_length_le _ (c :: s)

theorem afterAttribute?_length_lt {s r : Text} (h : afterAttribute? s = some r) :
    r.length < s.length := by
  unfold afterAttribute? at h
  split at h
  · cases h
  · rename_i c s
    split at h
    · have h₁ := dropWhile_length_le
        (fun d => isLetter d || isDigit d || d = '_' || d = '.' || d = ':' || d = '-') s
      generalize List.dropWhile
        (fun d => isLetter d || isDigit d || d = '_' || d = '.' || d = ':' || d = '-') s = name
        at h h₁
      have h₂ := dropWhile_length_le isInlineSpacing name
      dsimp only at h
      split at h
      · cases h
      · cases h
      · rename_i v hv
        have h₃ := dropWhile_length_le isInlineSpacing v
        rw [hv, List.length_cons] at h₂
        rw [List.length_cons]
        split at h
        · cases h
        · cases h
        · have := afterValue?_length_le h
          omega
      · cases h
        rw [List.length_cons]
        omega
    · cases h

/-- What follows the attributes of an opening tag: the text from `/` or `>` on. Every attribute has
blanks in front of it. -/
def afterAttributes? (s : Text) : Option Text :=
  let ahead := s.dropWhile isInlineSpacing
  if ahead.head? = some '/' || ahead.head? = some '>' then some ahead
  else if s.head?.any isInlineSpacing then
    match _h : afterAttribute? ahead with
    | none => none
    | some r => afterAttributes? r
  else none
termination_by s.length
decreasing_by
  exact Nat.lt_of_lt_of_le (afterAttribute?_length_lt _h) (dropWhile_length_le ..)

/-- What follows the opening or closing tag that the text after `<` holds. -/
def afterTag? (s : Text) : Option Text :=
  let closes := s.head? = some '/'
  let s := if closes then s.drop 1 else s
  match s with
  | [] => none
  | c :: _ =>
    if isLetter c then
      let s := (s.dropWhile isLetter).dropWhile fun d => isLetter d || isDigit d || d = '-'
      let s := if closes then some (s.dropWhile isInlineSpacing)
        else (afterAttributes? s).map fun s => if s.head? = some '/' then s.drop 1 else s
      match s with
      | some ('>' :: s) => some s
      | _ => none
    else none

/-- Whether the text after `<` is a complete tag and nothing else on its line. -/
def startsLoneTag (s : Text) : Bool :=
  match afterTag? s with
  | none => false
  | some s => startsBlank s

/-- Whether a block that may interrupt a paragraph begins here. -/
def interrupts : Text → Bool
  | '<' :: s => (closing? s).isSome || startsBlockElement s
  | _ => false

end Html

end Tangle.Markdown
