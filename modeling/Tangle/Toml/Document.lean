import Tangle.Toml.Scalar
import Tangle.Toml.Table

/-!
# TOML documents

A document is read in two steps. Reading the text gives its statements, headers and key-value pairs,
in order; building puts them together into one table. Either step fails on a malformed document, and
nothing is said about where.
-/

namespace Tangle.Toml

namespace Document

def skipBlanks (s : Text) : Text := s.dropWhile fun c => c = ' ' || c = '\t'

theorem skipBlanks_length_le (s : Text) : (skipBlanks s).length ≤ s.length :=
  (List.dropWhile_sublist _).length_le

/-- What follows blanks, comments and line ends; `comment` tells whether a comment is open. -/
def skipLines? (comment : Bool) : Text → Option Text
  | [] => some []
  | '\n' :: s => skipLines? false s
  | '\r' :: '\n' :: s => skipLines? false s
  | c :: s =>
    if comment then if isControl c then none else skipLines? true s
    else if c = ' ' || c = '\t' then skipLines? false s
    else if c = '#' then skipLines? true s
    else if c = '\r' then none
    else some (c :: s)

theorem skipLines?_length_le {comment : Bool} {s rest : Text}
    (h : skipLines? comment s = some rest) : rest.length ≤ s.length := by
  fun_induction skipLines? comment s with
  | case1 => cases h; exact Nat.le_refl _
  | case2 _ _ ih => exact Nat.le_trans (ih h) (Nat.le_succ _)
  | case3 _ _ ih => exact Nat.le_trans (ih h) (Nat.le_add_right _ 2)
  | case4 => cases h
  | case5 _ _ _ _ _ ih => exact Nat.le_trans (ih h) (Nat.le_succ _)
  | case6 _ _ _ _ _ _ _ ih => exact Nat.le_trans (ih h) (Nat.le_succ _)
  | case7 _ _ _ _ _ _ ih => exact Nat.le_trans (ih h) (Nat.le_succ _)
  | case8 => cases h
  | case9 => cases h; exact Nat.le_refl _

/-! ## Keys -/

def isBareKeyChar (c : Char) : Bool := c.isAlphanum || c = '_' || c = '-'

/-- The simple key that begins here. -/
def simpleKey? (s : Text) : Option (Text × Text) :=
  match s with
  | '"' :: t => Scalar.basic? t
  | '\'' :: t => Scalar.literal? t
  | s =>
    match s.takeWhile isBareKeyChar with
    | [] => none
    | key => some (key, s.dropWhile isBareKeyChar)

theorem simpleKey?_length_le {s key rest : Text} (h : simpleKey? s = some (key, rest)) :
    rest.length ≤ s.length := by
  unfold simpleKey? at h
  split at h
  · exact Nat.le_trans (Scalar.basic?_length_le h) (Nat.le_succ _)
  · exact Nat.le_trans (Scalar.literal?_length_le h) (Nat.le_succ _)
  · split at h <;> cases h
    exact (List.dropWhile_sublist _).length_le

/-- The keys that begin here with dots between them, and what follows the blanks behind them. -/
def keyPath? (s : Text) : Option (List Text × Text) :=
  match _hk : simpleKey? (skipBlanks s) with
  | none => none
  | some (key, rest) =>
    match _hr : skipBlanks rest with
    | '.' :: t => (keyPath? t).map fun (ks, r) => (key :: ks, r)
    | t => some ([key], t)
termination_by s.length
decreasing_by
  have h₁ := skipBlanks_length_le s
  have h₂ := simpleKey?_length_le _hk
  have h₃ := skipBlanks_length_le rest
  rw [_hr, List.length_cons] at h₃
  omega

theorem keyPath?_length_le {s rest : Text} {path : List Text}
    (h : keyPath? s = some (path, rest)) : rest.length ≤ s.length := by
  fun_induction keyPath? s generalizing path rest with
  | case1 => cases h
  | case2 s key u hk t hr ih =>
    obtain ⟨⟨ks, r⟩, hp, h⟩ := Option.map_eq_some_iff.1 h
    cases h
    have h₁ := skipBlanks_length_le s
    have h₂ := simpleKey?_length_le hk
    have h₃ := skipBlanks_length_le u
    have h₄ := ih hp
    rw [hr, List.length_cons] at h₃
    omega
  | case3 s key u hk =>
    cases h
    have h₁ := skipBlanks_length_le s
    have h₂ := simpleKey?_length_le hk
    have h₃ := skipBlanks_length_le u
    omega

/-! ## Values -/

/-- What a reader has left of a text. -/
abbrev Rest (s : Text) := { rest : Text // rest.length ≤ s.length }

/-- A reader of values. -/
abbrev ValueReader := (s : Text) → Option (Value × Rest s)

/-- The elements of an array, from behind its opening bracket or a comma. -/
def elements? (value? : ValueReader) (s : Text) : Option (List Value × Rest s) :=
  match hs : skipLines? false s with
  | none => none
  | some (']' :: rest) =>
    some ([], ⟨rest, Nat.le_of_succ_le (skipLines?_length_le hs)⟩)
  | some start =>
    match value? start with
    | none => none
    | some (v, ⟨rest, hv⟩) =>
      have hv := Nat.le_trans hv (skipLines?_length_le hs)
      match hr : skipLines? false rest with
      | some (']' :: rest) =>
        some ([v], ⟨rest, Nat.le_of_succ_le (Nat.le_trans (skipLines?_length_le hr) hv)⟩)
      | some (',' :: rest) =>
        have hr := Nat.le_trans (skipLines?_length_le hr) hv
        match elements? value? rest with
        | none => none
        | some (vs, ⟨rest, h⟩) => some (v :: vs, ⟨rest, Nat.le_trans h (Nat.le_of_succ_le hr)⟩)
      | _ => none
termination_by s.length
decreasing_by exact hr

/-- The pairs of an inline table, from behind its opening brace or a comma, added to `entries`. -/
def pairs? (value? : ValueReader) (entries : Node.Entries) (s : Text) :
    Option (Node.Entries × Rest s) :=
  match hs : skipLines? false s with
  | none => none
  | some ('\x7d' :: rest) =>
    some (entries, ⟨rest, Nat.le_of_succ_le (skipLines?_length_le hs)⟩)
  | some start =>
    match hk : keyPath? start with
    | some (path, '=' :: rest) =>
      have hk := Nat.le_of_succ_le (Nat.le_trans (keyPath?_length_le hk) (skipLines?_length_le hs))
      match value? (skipBlanks rest) with
      | none => none
      | some (v, ⟨rest, hv⟩) =>
        have hv := Nat.le_trans hv (Nat.le_trans (skipBlanks_length_le _) hk)
        match Node.define path.dropLast (path.getLast?.getD []) v entries with
        | none => none
        | some entries =>
          match hr : skipLines? false rest with
          | some ('\x7d' :: rest) =>
            some (entries,
              ⟨rest, Nat.le_of_succ_le (Nat.le_trans (skipLines?_length_le hr) hv)⟩)
          | some (',' :: rest) =>
            have hr := Nat.le_trans (skipLines?_length_le hr) hv
            match pairs? value? entries rest with
            | none => none
            | some (entries, ⟨rest, h⟩) =>
              some (entries, ⟨rest, Nat.le_trans h (Nat.le_of_succ_le hr)⟩)
          | _ => none
    | _ => none
termination_by s.length
decreasing_by exact hr

/-- The string that begins here, as a value. -/
def stringValue? (s : Text) : Option (Value × Rest s) :=
  match h : Scalar.string? s with
  | none => none
  | some (v, rest) => some (.string v, ⟨rest, Scalar.string?_length_le h⟩)

/-- The value that begins here, with at most `depth` arrays and inline tables one in another. -/
def value? (depth : Nat) (s : Text) : Option (Value × Rest s) :=
  match s with
  | '"' :: t => stringValue? ('"' :: t)
  | '\'' :: t => stringValue? ('\'' :: t)
  | '[' :: t =>
    match depth with
    | 0 => none
    | d + 1 =>
      (elements? (value? d) t).map fun (vs, ⟨rest, h⟩) =>
        (.array vs, ⟨rest, Nat.le_trans h (Nat.le_succ _)⟩)
  | '\x7b' :: t =>
    match depth with
    | 0 => none
    | d + 1 =>
      (pairs? (value? d) [] t).map fun (entries, ⟨rest, h⟩) =>
        (.table (Node.finishEntries entries), ⟨rest, Nat.le_trans h (Nat.le_succ _)⟩)
  | s =>
    (Scalar.ofWord? (Scalar.word s).1).map fun v =>
      (v, ⟨(Scalar.word s).2, Scalar.word_length_le s⟩)

/-- How deep arrays and inline tables may be nested. -/
def maxDepth : Nat := 80

/-! ## Statements -/

inductive Statement where
  | header (path : List Text)
  | elementHeader (path : List Text)
  | pair (path : List Text) (v : Value)

/-- The statement that begins here. -/
def statement? (s : Text) : Option (Statement × Text) :=
  match s with
  | '[' :: '[' :: t =>
    match keyPath? t with
    | some (path, ']' :: ']' :: rest) => some (.elementHeader path, rest)
    | _ => none
  | '[' :: t =>
    match keyPath? t with
    | some (path, ']' :: rest) => some (.header path, rest)
    | _ => none
  | s =>
    match keyPath? s with
    | some (path, '=' :: rest) =>
      (value? maxDepth (skipBlanks rest)).map fun (v, rest) => (.pair path v, rest)
    | _ => none

theorem statement?_length_lt {s rest : Text} {statement : Statement}
    (h : statement? s = some (statement, rest)) : rest.length < s.length := by
  unfold statement? at h
  split at h
  · split at h
    · rename_i hk
      cases h
      have := keyPath?_length_le hk
      simp only [List.length_cons] at this ⊢
      omega
    · cases h
  · split at h
    · rename_i hk
      cases h
      have := keyPath?_length_le hk
      simp only [List.length_cons] at this ⊢
      omega
    · cases h
  · split at h
    · rename_i path u hk
      obtain ⟨⟨v, ⟨r, hr⟩⟩, _, h⟩ := Option.map_eq_some_iff.1 h
      cases h
      have h₁ := keyPath?_length_le hk
      have h₂ := skipBlanks_length_le u
      rw [List.length_cons] at h₁
      show r.length < _
      omega
    · cases h

/-- What follows the end of a statement's line: blanks, a comment, and a line end. -/
def afterStatement? (s : Text) : Option Text :=
  match skipBlanks s with
  | '#' :: t =>
    let comment := t.takeWhile fun c => !(c = '\n' || c = '\r')
    if comment.any isControl then none else lineEnd? (t.drop comment.length)
  | t => lineEnd? t
where
  lineEnd? : Text → Option Text
    | [] => some []
    | s => Scalar.afterNewline? s

theorem afterStatement?_length_le {s rest : Text} (h : afterStatement? s = some rest) :
    rest.length ≤ s.length := by
  have lineEnd {t : Text} (h : afterStatement?.lineEnd? t = some rest) :
      rest.length ≤ t.length := by
    unfold afterStatement?.lineEnd? at h
    split at h
    · cases h; exact Nat.le_refl _
    · exact Nat.le_of_lt (Scalar.afterNewline?_length_lt h)
  have h₁ := skipBlanks_length_le s
  unfold afterStatement? at h
  split at h
  · rename_i t ht
    rw [ht, List.length_cons] at h₁
    dsimp only at h
    split at h
    · cases h
    · have := lineEnd h
      rw [List.length_drop] at this
      omega
  · exact Nat.le_trans (lineEnd h) h₁

/-- The statements of a document. -/
def statements? (s : Text) : Option (List Statement) :=
  match _hs : skipLines? false s with
  | none => none
  | some [] => some []
  | some (c :: t) =>
    match _ht : statement? (c :: t) with
    | none => none
    | some (statement, rest) =>
      match _hr : afterStatement? rest with
      | none => none
      | some rest => (statements? rest).map fun ss => statement :: ss
termination_by s.length
decreasing_by
  exact Nat.lt_of_le_of_lt (afterStatement?_length_le _hr)
    (Nat.lt_of_lt_of_le (statement?_length_lt _ht) (skipLines?_length_le _hs))

/-- Puts statements together. The path is that of the table under the last header. -/
def build (path : List Text) (entries : Node.Entries) : List Statement → Option Node.Entries
  | [] => some entries
  | .pair keys v :: rest =>
    match Node.within path (Node.define keys.dropLast (keys.getLast?.getD []) v) entries with
    | some entries => build path entries rest
    | none => none
  | .header keys :: rest =>
    match Node.enter keys.dropLast (keys.getLast?.getD []) entries with
    | some entries => build keys entries rest
    | none => none
  | .elementHeader keys :: rest =>
    match Node.enterElement keys.dropLast (keys.getLast?.getD []) entries with
    | some entries => build keys entries rest
    | none => none

end Document

/-- The table that a TOML document writes; nothing if the document is malformed. -/
def parse? (document : Text) : Option (List (Text × Value)) :=
  let s := match document with
    | '\ufeff' :: s => s
    | s => s
  match Document.statements? s with
  | none => none
  | some statements => (Document.build [] [] statements).map Node.finishEntries

end Tangle.Toml
