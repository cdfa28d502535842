import Mathlib.Algebra.GroupWithZero.Nat
import Tangle.Proofs.OctalNumerals

/-!
# Which texts are file modes

Reading a mode has three ends, and the numeral in the text decides between them: its
value fits a mode, or 32 bits and no more, or there is no such numeral
(`parse_outcome`). What counts as the numeral is said without the reader: blanks go
from around the text, and then one marker from its front (`Stripped`); digits are
left, behind a plus sign perhaps (`Numeral`).

All that has to be known of the reader of digits is `readNumeral_eq_some_iff`: it
gives the value of the numeral if that is below `2 ^ 32`, however many zeros stand in
front, and nothing otherwise.
-/

namespace Tangle

/-- No blank stands at either edge of the text. -/
structure Text.Trimmed (s : Text) : Prop where
  head : ∀ c ∈ s.head?, isBlank c = false
  last : ∀ c ∈ s.getLast?, isBlank c = false

theorem Text.trim_eq_of_trimmed {lead core trail : Text}
    (hlead : ∀ c ∈ lead, isBlank c = true) (htrail : ∀ c ∈ trail, isBlank c = true)
    (hcore : Trimmed core) : (lead ++ core ++ trail).trim = core := by
  rw [trim_append htrail, trim_append_of_blank hlead]
  exact trim_eq_self hcore.head hcore.last

namespace FileMode

/-- What is left of a text without the blanks around it and without one marker in
front of the rest. -/
inductive Stripped : Text → Text → Prop
  | marked {lead t trail : Text} (hlead : ∀ c ∈ lead, isBlank c = true)
      (htrail : ∀ c ∈ trail, isBlank c = true) (hcore : Text.Trimmed ('0' :: 'o' :: t)) :
      Stripped (lead ++ ('0' :: 'o' :: t) ++ trail) t
  | plain {lead t trail : Text} (hlead : ∀ c ∈ lead, isBlank c = true)
      (htrail : ∀ c ∈ trail, isBlank c = true) (hcore : Text.Trimmed t)
      (hplain : ¬ ['0', 'o'] <+: t) : Stripped (lead ++ t ++ trail) t

/-- An octal numeral and its value: digits, at least one, behind an optional plus
sign. -/
inductive Numeral : Text → Nat → Prop
  | intro {sign digits : Text} (hsign : sign = [] ∨ sign = ['+']) (hne : digits ≠ [])
      (hdigits : ∀ c ∈ digits, IsOctalDigit c) :
      Numeral (sign ++ digits) (Nat.ofDigitChars 8 digits 0)

/-- The part of a text that is read as a numeral. -/
def unmarked (s : Text) : Text := (Text.dropPrefix? ['0', 'o'] s.trim).getD s.trim

variable {s t : Text} {v : Nat}

/-! ## The numeral in a text -/

theorem unmarked_of_marked (h : s.trim = '0' :: 'o' :: t) : unmarked s = t := by
  rw [unmarked, (Text.dropPrefix?_eq_some_iff (r := t)).2 h, Option.getD_some]

theorem unmarked_of_plain (h : ¬ ['0', 'o'] <+: s.trim) : unmarked s = s.trim := by
  cases hd : Text.dropPrefix? ['0', 'o'] s.trim with
  | none => rw [unmarked, hd, Option.getD_none]
  | some rest => exact absurd ⟨rest, (Text.dropPrefix?_eq_some_iff.1 hd).symm⟩ h

theorem stripped_iff : Stripped s t ↔ t = unmarked s := by
  constructor
  · intro h
    cases h with
    | marked hlead htrail hcore =>
        exact (unmarked_of_marked (Text.trim_eq_of_trimmed hlead htrail hcore)).symm
    | plain hlead htrail hcore hplain =>
        have htrim := Text.trim_eq_of_trimmed hlead htrail hcore
        rw [unmarked_of_plain (htrim.symm ▸ hplain), htrim]
  · intro h
    subst h
    obtain ⟨lead, trail, hlead, htrail, heq⟩ := Text.exists_eq_trim s
    have hcore : Text.Trimmed s.trim :=
      ⟨Text.not_blank_head?_trim, Text.not_blank_getLast?_trim⟩
    by_cases hprefix : ['0', 'o'] <+: s.trim
    · obtain ⟨t, ht⟩ := hprefix
      have htrim : s.trim = '0' :: 'o' :: t := ht.symm
      rw [unmarked_of_marked htrim]
      rw [htrim] at heq hcore
      rw [heq]
      exact .marked hlead htrail hcore
    · rw [unmarked_of_plain hprefix]
      have hplain := Stripped.plain hlead htrail hcore hprefix
      rw [← heq] at hplain
      exact hplain

theorem readNumeral_eq_some_iff_numeral :
    readNumeral t = some v ↔ Numeral t v ∧ v < 2 ^ 32 := by
  rw [readNumeral_eq_some_iff]
  constructor
  · rintro ⟨digits, rfl | rfl, hne, hdigits, rfl, hfits⟩
    · exact ⟨.intro (.inl rfl) hne hdigits, hfits⟩
    · exact ⟨.intro (.inr rfl) hne hdigits, hfits⟩
  · rintro ⟨⟨rfl | rfl, hne, hdigits⟩, hfits⟩
    · exact ⟨_, .inl rfl, hne, hdigits, rfl, hfits⟩
    · exact ⟨_, .inr rfl, hne, hdigits, rfl, hfits⟩

theorem readNumeral_eq_none_iff :
    readNumeral t = none ↔ ∀ v, Numeral t v → 2 ^ 32 ≤ v := by
  rw [Option.eq_none_iff_forall_ne_some]
  refine forall_congr' fun v => ?_
  rw [Ne, readNumeral_eq_some_iff_numeral, not_and, Nat.not_lt]

theorem numeral_of_zeros {sign digits : Text} (hsign : sign = [] ∨ sign = ['+'])
    (hne : digits ≠ []) (hdigits : ∀ c ∈ digits, IsOctalDigit c) (zeros : Nat) :
    Numeral (sign ++ (List.replicate zeros '0' ++ digits))
      (Nat.ofDigitChars 8 digits 0) := by
  have hall : ∀ c ∈ List.replicate zeros '0' ++ digits, IsOctalDigit c := by
    intro c hc
    rcases List.mem_append.1 hc with hc | hc
    · rw [List.eq_of_mem_replicate hc]
      decide
    · exact hdigits c hc
  have hvalue := Numeral.intro hsign (List.append_ne_nil_of_right_ne_nil _ hne) hall
  rw [Nat.ofDigitChars_append, ofDigitChars_replicate_zero] at hvalue
  exact hvalue

/-! ## The three ends -/

theorem parse_eq (s : Text) : parse s = match readNumeral (unmarked s) with
    | none => .error (.notOctal s)
    | some v => ofBits v := rfl

/-- Reading comes to what the bits of the numeral come to, if there is a numeral of
32 bits. -/
theorem parse_eq_iff {r : Except FileModeError FileMode} :
    parse s = r ↔
      (∃ v, Numeral (unmarked s) v ∧ v < 2 ^ 32 ∧ ofBits v = r) ∨
      ((∀ v, Numeral (unmarked s) v → 2 ^ 32 ≤ v) ∧ .error (.notOctal s) = r) := by
  rw [parse_eq]
  cases hr : readNumeral (unmarked s) with
  | none =>
      have hlarge := readNumeral_eq_none_iff.1 hr
      constructor
      · intro h
        exact .inr ⟨hlarge, h⟩
      · rintro (⟨v, hnumeral, hfits, -⟩ | ⟨-, h⟩)
        · exact absurd hfits (Nat.not_lt.2 (hlarge v hnumeral))
        · exact h
  | some v =>
      obtain ⟨hnumeral, hfits⟩ := readNumeral_eq_some_iff_numeral.1 hr
      constructor
      · intro h
        exact .inl ⟨v, hnumeral, hfits, h⟩
      · rintro (⟨v', hnumeral', hfits', h⟩ | ⟨hlarge, -⟩)
        · -- there is only one value, since the reader is a function
          rw [readNumeral_eq_some_iff_numeral.2 ⟨hnumeral', hfits'⟩] at hr
          cases hr
          exact h
        · exact absurd hfits (Nat.not_lt.2 (hlarge v hnumeral))

theorem parse_eq_ok_iff_numeral {mode : FileMode} :
    parse s = .ok mode ↔ Numeral (unmarked s) mode.bits := by
  have hle := mode.bits_le
  rw [parse_eq_iff]
  constructor
  · rintro (⟨v, hnumeral, -, h⟩ | ⟨-, h⟩)
    · exact ofBits_eq_ok_iff.1 h ▸ hnumeral
    · cases h
  · intro hnumeral
    exact .inl ⟨mode.bits, hnumeral, by omega, ofBits_eq_ok_iff.2 rfl⟩

theorem parse_eq_outOfRange_iff {n : Nat} :
    parse s = .error (.outOfRange n) ↔
      Numeral (unmarked s) n ∧ 0o7777 < n ∧ n < 2 ^ 32 := by
  rw [parse_eq_iff]
  constructor
  · rintro (⟨v, hnumeral, hfits, h⟩ | ⟨-, h⟩)
    · obtain ⟨rfl, hlarge⟩ := ofBits_eq_outOfRange_iff.1 h
      exact ⟨hnumeral, hlarge, hfits⟩
    · cases h
  · rintro ⟨hnumeral, hlarge, hfits⟩
    exact .inl ⟨n, hnumeral, hfits, ofBits_eq_outOfRange_iff.2 ⟨rfl, hlarge⟩⟩

theorem parse_eq_notOctal_iff {text : Text} :
    parse s = .error (.notOctal text) ↔
      text = s ∧ ∀ v, Numeral (unmarked s) v → 2 ^ 32 ≤ v := by
  rw [parse_eq_iff]
  constructor
  · rintro (⟨v, -, -, h⟩ | ⟨hlarge, h⟩)
    · exact absurd h (ofBits_ne_notOctal v text)
    · cases h
      exact ⟨rfl, hlarge⟩
  · rintro ⟨rfl, hlarge⟩
    exact .inr ⟨hlarge, rfl⟩

/-- Which texts are file modes.

The numeral is what is left of the text without blanks around it and without one
marker. It is a mode if its value fits twelve bits, and then the mode has just this
value. If the value fits 32 bits and no more, the value is reported. Everything else,
larger numerals included, is no octal numeral, and then the text is reported as it was
given. Zeros in front do not count, and a mode that has been read is displayed as a
text that is read as the same mode. -/
theorem parse_outcome (s : Text) :
    let t := unmarked s
    (∀ t', Stripped s t' ↔ t' = t) ∧
    (∀ b, (∃ mode, parse s = .ok mode ∧ mode.bits = b) ↔ Numeral t b ∧ b ≤ 0o7777) ∧
    (∀ v, parse s = .error (.outOfRange v) ↔
      Numeral t v ∧ 0o7777 < v ∧ v < 2 ^ 32) ∧
    (∀ text, parse s = .error (.notOctal text) ↔
      text = s ∧ ∀ v, Numeral t v → 2 ^ 32 ≤ v) ∧
    (∀ sign zeros digits, t = sign ++ (List.replicate zeros '0' ++ digits) →
      (sign = [] ∨ sign = ['+']) → digits ≠ [] → (∀ c ∈ digits, IsOctalDigit c) →
      Nat.ofDigitChars 8 digits 0 ≤ 0o7777 →
      ∃ mode, parse s = .ok mode ∧ mode.bits = Nat.ofDigitChars 8 digits 0) ∧
    ∀ mode, parse s = .ok mode → parse mode.display = .ok mode := by
  intro t
  have haccepted (b : Nat) :
      (∃ mode, parse s = .ok mode ∧ mode.bits = b) ↔ Numeral t b ∧ b ≤ 0o7777 := by
    constructor
    · rintro ⟨mode, hmode, rfl⟩
      exact ⟨parse_eq_ok_iff_numeral.1 hmode, mode.bits_le⟩
    · rintro ⟨hnumeral, hle⟩
      exact ⟨⟨b, hle⟩, parse_eq_ok_iff_numeral.2 hnumeral, rfl⟩
  refine ⟨fun _ => stripped_iff, haccepted, fun _ => parse_eq_outOfRange_iff,
    fun _ => parse_eq_notOctal_iff, ?_, fun mode _ => parse_display mode⟩
  intro sign zeros digits ht hsign hne hdigits hle
  have hnumeral := numeral_of_zeros hsign hne hdigits zeros
  rw [← ht] at hnumeral
  exact (haccepted _).2 ⟨hnumeral, hle⟩

/-- Twelve zeros too many, a plus sign, a marker and blanks; the largest numeral of 32
bits and the next one; and a blank between the marker and the digits. -/
theorem parse_outcome_atLimits :
    let text : String → Text := String.toList
    (∃ mode, parse (text " 0o+0000000000000755\n") = .ok mode ∧ mode.bits = 0o755) ∧
      parse (text "37777777777") = .error (.outOfRange (2 ^ 32 - 1)) ∧
      parse (text "040000000000") = .error (.notOctal (text "040000000000")) ∧
      parse (text "0o 755 ") = .error (.notOctal (text "0o 755 ")) := by
  intro text
  have hzeros := (parse_outcome (text " 0o+0000000000000755\n")).2.2.2.2.1 ['+'] 13
    (octalDigits 0o755) (by decide +kernel) (.inr rfl) (by decide)
    (isOctalDigit_octalDigits 0o755) (by decide)
  exact ⟨hzeros, by decide +kernel, by decide +kernel, by decide +kernel⟩

end FileMode

end Tangle
