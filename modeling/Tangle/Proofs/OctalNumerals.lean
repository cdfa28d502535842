import Tangle.FileMode
import Tangle.Proofs.Interior

/-!
# Octal numerals

A numeral is read digit by digit, and the value so far has to stay within 32 bits all
the time. Since it never gets smaller from one digit to the next, that is no more than
a bound on the value in the end (`readOctal_eq_some_iff`): zeros in front do not count.

What a mode is displayed as is such a numeral, and it is read back (`parse_display`).
-/

namespace Tangle

/-- A character that is an octal digit. -/
def IsOctalDigit (c : Char) : Prop := '0' ≤ c ∧ c ≤ '7'

instance (c : Char) : Decidable (IsOctalDigit c) := inferInstanceAs (Decidable (_ ∧ _))

theorem IsOctalDigit.exists_digitChar {c : Char} (h : IsOctalDigit c) :
    ∃ d < 8, c = Nat.digitChar d := by
  have hlow : 48 ≤ c.toNat := h.1
  have hhigh : c.toNat ≤ 55 := h.2
  refine ⟨c.toNat - 48, by omega, Char.toNat_inj.1 ?_⟩
  rw [Nat.toNat_digitChar_of_lt_ten (by omega)]
  omega

theorem isOctalDigit_digitChar {d : Nat} (hd : d < 8) : IsOctalDigit (Nat.digitChar d) := by
  have hval := Nat.toNat_digitChar_of_lt_ten (by omega : d < 10)
  constructor
  · show 48 ≤ (Nat.digitChar d).toNat
    omega
  · show (Nat.digitChar d).toNat ≤ 55
    omega

theorem IsOctalDigit.not_blank {c : Char} (h : IsOctalDigit c) : isBlank c = false := by
  obtain ⟨d, hd, rfl⟩ := h.exists_digitChar
  clear h
  revert d
  decide

theorem isOctalDigit_octalDigits (n : Nat) : ∀ c ∈ octalDigits n, IsOctalDigit c := by
  induction n using Nat.strongRecOn with
  | ind n ih =>
      intro c hc
      rw [octalDigits, Nat.toDigits_eq_if (by decide)] at hc
      split at hc
      · next hn =>
          rw [List.mem_singleton.1 hc]
          exact isOctalDigit_digitChar hn
      · next hn =>
          rcases List.mem_append.1 hc with hc | hc
          · exact ih (n / 8) (by omega) c hc
          · rw [List.mem_singleton.1 hc]
            exact isOctalDigit_digitChar (Nat.mod_lt n (by decide))

namespace FileMode

theorem octalDigit?_eq_some_iff {c : Char} {d : Nat} :
    octalDigit? c = some d ↔ IsOctalDigit c ∧ c.toNat - '0'.toNat = d := by
  simp [octalDigit?, IsOctalDigit]

theorem le_ofDigitChars (n : Nat) (s : Text) : n ≤ Nat.ofDigitChars 8 s n := by
  induction s generalizing n with
  | nil => exact Nat.le_refl n
  | cons c s ih =>
      rw [Nat.ofDigitChars_cons]
      have := ih (8 * n + (c.toNat - '0'.toNat))
      omega

/-- Reading digits gives their value if it fits, and nothing otherwise. -/
theorem readOctal_eq_some_iff {n v : Nat} {s : Text} (hn : n < UInt32.size) :
    readOctal n s = some v ↔
      (∀ c ∈ s, IsOctalDigit c) ∧ Nat.ofDigitChars 8 s n = v ∧ v < UInt32.size := by
  induction s generalizing n with
  | nil =>
      rw [readOctal, Option.some.injEq]
      constructor
      · rintro rfl
        exact ⟨nofun, rfl, hn⟩
      · rintro ⟨-, h, -⟩
        exact h
  | cons c s ih =>
      rw [List.forall_mem_cons, Nat.ofDigitChars_cons, readOctal]
      cases hd : octalDigit? c with
      | none =>
          refine ⟨nofun, fun h => ?_⟩
          rw [octalDigit?_eq_some_iff.2 ⟨h.1.1, rfl⟩] at hd
          cases hd
      | some d =>
          obtain ⟨hc, rfl⟩ := octalDigit?_eq_some_iff.1 hd
          simp only [Nat.mul_comm n 8, hc, true_and]
          split
          · next hfits => exact ih hfits
          · next hlarge =>
              -- the value only grows, so the numeral as a whole does not fit either
              refine ⟨nofun, fun h => ?_⟩
              have hle := le_ofDigitChars (8 * n + (c.toNat - '0'.toNat)) s
              rw [h.2.1] at hle
              omega

/-- A numeral is a digit or more behind an optional plus sign. -/
theorem readNumeral_eq_some_iff {t : Text} {v : Nat} :
    readNumeral t = some v ↔ ∃ digits, (t = digits ∨ t = '+' :: digits) ∧ digits ≠ [] ∧
      (∀ c ∈ digits, IsOctalDigit c) ∧ Nat.ofDigitChars 8 digits 0 = v ∧
      v < UInt32.size := by
  have hplus : ¬ IsOctalDigit '+' := by decide
  have hzero : 0 < UInt32.size := by decide
  unfold readNumeral
  split
  · refine ⟨nofun, ?_⟩
    rintro ⟨_, rfl | h, hne, -⟩
    · exact absurd rfl hne
    · cases h
  · refine ⟨nofun, ?_⟩
    rintro ⟨_, rfl | h, hne, hdigits, -⟩
    · exact absurd (hdigits '+' (List.mem_singleton_self _)) hplus
    · cases h
      exact absurd rfl hne
  · next s hs =>
      rw [readOctal_eq_some_iff hzero]
      constructor
      · intro h
        exact ⟨s, .inr rfl, fun hnil => hs (hnil ▸ rfl), h⟩
      · rintro ⟨_, rfl | h, -, hread⟩
        · exact absurd (hread.1 '+' (List.mem_cons_self ..)) hplus
        · cases h
          exact hread
  · next hnil _ hsigned =>
      rw [readOctal_eq_some_iff hzero]
      constructor
      · intro h
        exact ⟨t, .inl rfl, hnil, h⟩
      · rintro ⟨digits, rfl | rfl, -, hread⟩
        · exact hread
        · exact absurd rfl (hsigned digits)

theorem ofDigitChars_replicate_zero (k : Nat) :
    Nat.ofDigitChars 8 (List.replicate k '0') 0 = 0 := by
  induction k with
  | zero => rfl
  | succ k ih => exact ih

theorem ofBits_eq_ok_iff {n : Nat} {mode : FileMode} :
    ofBits n = .ok mode ↔ n = mode.bits := by
  unfold ofBits
  split
  · next hn =>
      rw [Except.ok.injEq]
      constructor
      · rintro rfl
        rfl
      · rintro rfl
        rfl
  · next hn =>
      refine ⟨nofun, fun h => ?_⟩
      exact absurd mode.bits_le (h ▸ hn)

theorem ofBits_eq_outOfRange_iff {v n : Nat} :
    ofBits v = .error (.outOfRange n) ↔ v = n ∧ 0o7777 < n := by
  rw [ofBits]
  split
  · next hle =>
      constructor
      · intro h
        cases h
      · rintro ⟨rfl, hlarge⟩
        omega
  · next hlarge =>
      constructor
      · intro h
        cases h
        exact ⟨rfl, by omega⟩
      · rintro ⟨rfl, -⟩
        rfl

theorem ofBits_ne_notOctal (v : Nat) (text : Text) :
    ofBits v ≠ .error (.notOctal text) := by
  rw [ofBits]
  split <;> exact nofun

/-! ## Displaying -/

theorem isOctalDigit_display (mode : FileMode) : ∀ c ∈ mode.display, IsOctalDigit c := by
  intro c hc
  rcases List.mem_append.1 hc with hc | hc
  · rw [List.eq_of_mem_replicate hc]
    decide
  · exact isOctalDigit_octalDigits mode.bits c hc

theorem display_ne_nil (mode : FileMode) : mode.display ≠ [] :=
  List.append_ne_nil_of_right_ne_nil _
    (List.ne_nil_of_length_pos Nat.length_toDigits_pos)

theorem ofDigitChars_display (mode : FileMode) :
    Nat.ofDigitChars 8 mode.display 0 = mode.bits := by
  rw [display, Nat.ofDigitChars_append, ofDigitChars_replicate_zero]
  exact Nat.ofDigitChars_toDigits (by decide) (by decide)

theorem trim_display (mode : FileMode) : mode.display.trim = mode.display :=
  Text.trim_eq_self
    (fun c hc => (isOctalDigit_display mode c (List.mem_of_head? hc)).not_blank)
    fun c hc => (isOctalDigit_display mode c (List.mem_of_getLast? hc)).not_blank

/-- What a mode is displayed as is that mode again. -/
theorem parse_display (mode : FileMode) : parse mode.display = .ok mode := by
  have hmarker : Text.dropPrefix? ['0', 'o'] mode.display = none := by
    rw [Option.eq_none_iff_forall_ne_some]
    intro rest h
    rw [Text.dropPrefix?_eq_some_iff] at h
    have hmem : 'o' ∈ mode.display := by
      rw [h]
      exact List.mem_cons_of_mem _ (List.mem_cons_self ..)
    exact absurd (isOctalDigit_display mode 'o' hmem) (by decide)
  have hread : readNumeral mode.display = some mode.bits := by
    refine readNumeral_eq_some_iff.2 ⟨mode.display, .inl rfl, display_ne_nil mode,
      isOctalDigit_display mode, ofDigitChars_display mode, ?_⟩
    exact Nat.lt_of_le_of_lt mode.bits_le (by decide)
  simp only [parse, trim_display, hmarker, Option.getD_none, hread]
  exact dif_pos mode.bits_le

end FileMode

end Tangle
