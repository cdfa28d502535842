/-!
# Text

A document, a tag, a path and a literal are all sequences of Unicode scalar values. This file has
the few operations on them that every other module uses: blank characters and trimming, taking a
fixed beginning or ending off, and looking for a needle.
-/

namespace Tangle

/-- A sequence of Unicode scalar values. -/
abbrev Text := List Char

/-- The characters with the Unicode property White_Space. -/
def isBlank (c : Char) : Bool :=
  ('\t' ≤ c && c ≤ '\r') || c = ' ' || c = '\u0085' || c = '\u00a0' || c = '\u1680' ||
    ('\u2000' ≤ c && c ≤ '\u200a') || c = '\u2028' || c = '\u2029' || c = '\u202f' ||
    c = '\u205f' || c = '\u3000'

namespace Text

/-- The text without the blank characters it begins with. -/
def trimStart (s : Text) : Text := s.dropWhile isBlank

/-- The text without the blank characters it ends with. -/
def trimEnd (s : Text) : Text := (s.reverse.dropWhile isBlank).reverse

/-- The text without blank characters at either edge. -/
def trim (s : Text) : Text := trimEnd (trimStart s)

/-- What follows `p` in a text that begins with it. -/
def dropPrefix? : Text → Text → Option Text
  | [], s => some s
  | _ :: _, [] => none
  | a :: p, b :: s => if a = b then dropPrefix? p s else none

theorem dropPrefix?_eq_some_iff {p s r : Text} : dropPrefix? p s = some r ↔ s = p ++ r := by
  induction p generalizing s with
  | nil => rw [dropPrefix?, Option.some.injEq, List.nil_append]
  | cons a p ih =>
    cases s with
    | nil => simp [dropPrefix?]
    | cons b s =>
      rw [dropPrefix?, List.cons_append, List.cons.injEq]
      split
      · rename_i hab
        rw [ih]
        exact ⟨fun h => ⟨hab.symm, h⟩, fun h => h.2⟩
      · rename_i hab
        exact ⟨nofun, fun h => absurd h.1.symm hab⟩

/-- What comes before `q` in a text that ends with it. -/
def dropSuffix? (q s : Text) : Option Text :=
  (dropPrefix? q.reverse s.reverse).map List.reverse

/-- Whether `needle` occurs somewhere in the text. -/
def occursIn (needle : Text) : Text → Bool
  | [] => needle.isEmpty
  | c :: s => needle.isPrefixOf (c :: s) || occursIn needle s

/-- A run of `n` spaces. -/
def spaces (n : Nat) : Text := List.replicate n ' '

end Text

end Tangle
