import Mathlib.Data.List.TakeWhile
import Tangle.Toml.Document

/-!
# Writing TOML

Texts, lists of texts, booleans and numbers are written here in the way that is
easiest to read back: a text between quotes with every character that cannot stand
there escaped, a number in decimal. Each of them is read back by the reader of values
(`Gives`), and a line with a key in front of one by the reader of statements
(`statements?_line`).
-/

namespace Tangle.Toml

/-- Characters are told apart by a test that only one of them passes. -/
theorem ne_of_test {p : Char → Bool} {c d : Char} (hc : p c = true) (hd : p d = false) :
    c ≠ d := by
  rintro rfl
  rw [hc] at hd
  cases hd

/-! ## Texts -/

/-- A character between quotes. -/
def writeChar (c : Char) : Text :=
  if c = '"' ∨ c = '\\' then ['\\', c]
  else if isControl c then
    ['\\', 'u', '0', '0', Nat.digitChar (c.toNat / 16), Nat.digitChar (c.toNat % 16)]
  else [c]

/-- A text between quotes. -/
def writeText (s : Text) : Text := '"' :: s.flatMap writeChar ++ ['"']

namespace Scalar

theorem basic?_cons {c : Char} {s : Text} (hquote : c ≠ '"') (hslash : c ≠ '\\')
    (hcontrol : isControl c = false) :
    basic? (c :: s) = (basic? s).map fun (v, r) => (c :: v, r) := by
  rw [basic?.eq_def]
  split
  · next h => cases h
  · next h =>
      cases h
      exact absurd rfl hquote
  · next h =>
      cases h
      exact absurd rfl hslash
  · next h =>
      cases h
      rw [hcontrol]
      rfl

theorem basic?_escape {c : Char} {s t : Text} (h : escape? t = some (c, s)) :
    basic? ('\\' :: t) = (basic? s).map fun (v, r) => (c :: v, r) := by
  rw [basic?.eq_def]
  split
  · next heq => cases heq
  · next heq => cases heq
  · next heq =>
      cases heq
      split
      · next hnone =>
          rw [h] at hnone
          cases hnone
      · next hsome =>
          rw [h] at hsome
          cases hsome
          rfl
  · next hne heq =>
      cases heq
      exact absurd rfl hne

theorem codePoint?_control {c : Char} (h : isControl c = true) (s : Text) :
    codePoint? 4 ('0' :: '0' :: Nat.digitChar (c.toNat / 16) ::
      Nat.digitChar (c.toNat % 16) :: s) = some (c, s) := by
  have hall : ∀ n < 128, Text.number? 16
      ['0', '0', Nat.digitChar (n / 16), Nat.digitChar (n % 16)] = some n := by
    decide
  have hlt : c.toNat < 128 := by
    simp only [isControl, Bool.or_eq_true, Bool.and_eq_true, decide_eq_true_eq] at h
    rcases h with ⟨h, -⟩ | rfl
    · have hval : c.toNat < 32 := h
      omega
    · decide
  have hvalid : c.toNat.isValidChar := .inl (by omega)
  rw [codePoint?, if_neg (by simp), List.take_succ_cons, List.take_succ_cons,
    List.take_succ_cons, List.take_succ_cons, List.take_zero, hall _ hlt]
  dsimp only
  rw [if_pos hvalid, Char.ofNat_toNat]
  rfl

/-- A character is read back as it was written. -/
theorem basic?_writeChar (c : Char) (s : Text) :
    basic? (writeChar c ++ s) = (basic? s).map fun (v, r) => (c :: v, r) := by
  unfold writeChar
  split
  · next h => rcases h with rfl | rfl <;> exact basic?_escape rfl
  · next h =>
      split
      · next hcontrol => exact basic?_escape (codePoint?_control hcontrol s)
      · next hcontrol =>
          exact basic?_cons (fun hc => h (.inl hc)) (fun hc => h (.inr hc))
            (Bool.eq_false_iff.2 hcontrol)

theorem basic?_flatMap (s rest : Text) :
    basic? (s.flatMap writeChar ++ '"' :: rest) = some (s, rest) := by
  induction s with
  | nil => simp only [List.flatMap_nil, List.nil_append, basic?]
  | cons c s ih =>
      rw [List.flatMap_cons, List.append_assoc, basic?_writeChar, ih]
      rfl

theorem writeChar_ne_quote (c : Char) : ∃ d ds, writeChar c = d :: ds ∧ d ≠ '"' := by
  unfold writeChar
  split
  · exact ⟨_, _, rfl, by decide⟩
  split
  · exact ⟨_, _, rfl, by decide⟩
  · next h _ => exact ⟨_, _, rfl, fun hc => h (.inl hc)⟩

/-- What does not begin with three quotes is a text on one line. -/
theorem string?_quote {s : Text} (hs : ∀ t, s ≠ '"' :: '"' :: t) :
    string? ('"' :: s) = basic? s := by
  unfold string?
  split
  · next h =>
      cases h
      exact absurd rfl (hs _)
  · next h => cases h
  · next h =>
      cases h
      rfl
  · next h => cases h
  · next h _ => exact absurd rfl (h _)

/-- A text is read back as it was written. A quote behind it would be taken for one of
three that open a text of several lines. -/
theorem string?_writeText (s : Text) {rest : Text} (hrest : ∀ t, rest ≠ '"' :: t) :
    string? (writeText s ++ rest) = some (s, rest) := by
  rw [writeText, List.append_assoc, List.cons_append, List.singleton_append,
    string?_quote, basic?_flatMap]
  intro t h
  cases s with
  | nil => exact hrest t (List.cons.inj h).2
  | cons c s =>
      obtain ⟨d, ds, hd, hne⟩ := writeChar_ne_quote c
      rw [List.flatMap_cons, hd] at h
      exact hne (List.cons.inj h).1

/-! ## Numbers -/

theorem digit?_of_isDigit {c : Char} (hc : c.isDigit = true) :
    Text.digit? 10 c = some (c.toNat - '0'.toNat) := by
  rw [Char.isDigit, Bool.and_eq_true, decide_eq_true_eq, decide_eq_true_eq] at hc
  have hhex : Text.hexDigit? c = some (c.toNat - '0'.toNat) := by
    rw [Text.hexDigit?, if_pos]
    rw [Bool.and_eq_true, decide_eq_true_eq, decide_eq_true_eq]
    exact hc
  have hlt : c.toNat - '0'.toNat < 10 := by
    have hhigh : c.toNat ≤ 57 := hc.2
    show c.toNat - 48 < 10
    omega
  rw [Text.digit?, hhex, Option.filter_some, if_pos (decide_eq_true hlt)]

theorem number?_eq_some {s : Text} (hs : ∀ c ∈ s, c.isDigit = true) :
    Text.number? 10 s = some (Nat.ofDigitChars 10 s 0) := by
  have hfold (n : Nat) : s.foldlM (fun n c => (Text.digit? 10 c).map (n * 10 + ·)) n =
      some (Nat.ofDigitChars 10 s n) := by
    induction s generalizing n with
    | nil => rfl
    | cons c s ih =>
        obtain ⟨hc, hs⟩ := List.forall_mem_cons.1 hs
        rw [List.foldlM_cons, digit?_of_isDigit hc, Nat.ofDigitChars_cons, Nat.mul_comm 10 n]
        exact ih hs _
  exact hfold 0

theorem isDigit_of_mem_digits {n : Nat} {c : Char} (hc : c ∈ Nat.toDigits 10 n) :
    c.isDigit = true :=
  Nat.isDigit_of_mem_toDigits (by decide) (by decide) hc

theorem not_mem_digits {n : Nat} {c : Char} (hc : c.isDigit = false) :
    c ∉ Nat.toDigits 10 n :=
  fun h => ne_of_test (isDigit_of_mem_digits h) hc rfl

theorem digits_ne_nil (n : Nat) : Nat.toDigits 10 n ≠ [] :=
  List.ne_nil_of_length_pos Nat.length_toDigits_pos

theorem head?_toDigits_ne_zero {n : Nat} (hn : 0 < n) :
    (Nat.toDigits 10 n).head? ≠ some '0' := by
  induction n using Nat.strongRecOn with
  | ind n ih =>
      rw [Nat.toDigits_eq_if (by decide)]
      split
      · next hlt =>
          have hall : ∀ d < 10, 0 < d → [Nat.digitChar d].head? ≠ some '0' := by decide
          exact hall n hlt hn
      · next hge =>
          have hne := digits_ne_nil (n / 10)
          rw [List.head?_append, List.head?_eq_some_head hne, Option.some_or,
            ← List.head?_eq_some_head hne]
          exact ih (n / 10) (by omega) (by omega)

theorem wholeDigits?_toDigits (n : Nat) :
    wholeDigits? (Nat.toDigits 10 n) = some (Nat.toDigits 10 n) := by
  have hgroups : ungroup? (Nat.toDigits 10 n) = some (Nat.toDigits 10 n) := by
    have hsplit : (Nat.toDigits 10 n).splitOn '_' = [Nat.toDigits 10 n] :=
      List.splitOn_eq_singleton (not_mem_digits rfl)
    simp [ungroup?, hsplit]
  have hfront : (Nat.toDigits 10 n).length = 1 ∨ (Nat.toDigits 10 n).head? ≠ some '0' := by
    by_cases hn : n < 10
    · rw [Nat.toDigits_of_lt_base hn]
      exact .inl rfl
    · exact .inr (head?_toDigits_ne_zero (by omega))
  simp only [wholeDigits?, hgroups]
  rw [if_pos]
  rw [Bool.and_eq_true, List.all_eq_true, Bool.or_eq_true, decide_eq_true_eq, bne_iff_ne]
  exact ⟨fun _ => isDigit_of_mem_digits, hfront⟩

theorem integer?_toDigits {n : Nat} (hn : inRange n = true) :
    integer? (Nat.toDigits 10 n) = some (n : Int) := by
  have hvalue : (wholeDigits? (Nat.toDigits 10 n)).bind (Text.number? 10) = some n := by
    rw [wholeDigits?_toDigits, Option.bind_some,
      number?_eq_some fun _ => isDigit_of_mem_digits,
      Nat.ofDigitChars_toDigits (by decide) (by decide)]
  have hsign : splitSign (Nat.toDigits 10 n) = (false, Nat.toDigits 10 n) := by
    unfold splitSign
    split
    · next h => exact absurd (h ▸ List.mem_cons_self ..) (not_mem_digits (c := '-') rfl)
    · next h => exact absurd (h ▸ List.mem_cons_self ..) (not_mem_digits (c := '+') rfl)
    · rfl
  have hmarked {c : Char} {ds : Text} (hc : c.isDigit = false) :
      Nat.toDigits 10 n ≠ '0' :: c :: ds := fun h =>
    not_mem_digits hc (h ▸ List.mem_cons_of_mem _ (List.mem_cons_self ..))
  unfold integer?
  dsimp only
  split
  · next h => exact absurd h (hmarked rfl)
  · next h => exact absurd h (hmarked rfl)
  · next h => exact absurd h (hmarked rfl)
  · rw [hsign]
    dsimp only
    rw [hvalue]
    exact Option.filter_eq_some_iff.2 ⟨rfl, hn⟩

theorem ofWord?_toDigits {n : Nat} (hn : inRange n = true) :
    ofWord? (Nat.toDigits 10 n) = some (.integer n) := by
  have hword {c : Char} {s : Text} (hc : c.isDigit = false) :
      Nat.toDigits 10 n ≠ c :: s := fun h => not_mem_digits hc (h ▸ List.mem_cons_self ..)
  have htrue : Nat.toDigits 10 n ≠ "true".toList := hword rfl
  have hfalse : Nat.toDigits 10 n ≠ "false".toList := hword rfl
  rw [ofWord?, if_neg htrue, if_neg hfalse, integer?_toDigits hn]

/-- A run of characters up to the end of its line. -/
theorem word_newline {w : Text} (hw : ∀ c ∈ w, endsWord c = false) (rest : Text) :
    word (w ++ '\n' :: rest) = (w, '\n' :: rest) := by
  have hw' : ∀ c ∈ w, (!endsWord c) = true := fun c hc => by rw [hw c hc]; rfl
  have htake : (w ++ '\n' :: rest).takeWhile (fun c => !endsWord c) = w := by
    rw [List.takeWhile_append_of_pos hw']
    exact List.append_nil w
  have hdrop : (w ++ '\n' :: rest).dropWhile (fun c => !endsWord c) = '\n' :: rest := by
    rw [List.dropWhile_append_of_pos hw']
    rfl
  unfold word
  dsimp only
  rw [htake, hdrop]
  split
  · next h => cases h
  · rfl

end Scalar

namespace Document

/-! ## Values -/

/-- A reader gives this and leaves that of the text. -/
def Gives {α : Type} {s : Text} (read : Option (α × Rest s)) (a : α) (rest : Text) : Prop :=
  ∃ h : rest.length ≤ s.length, read = some (a, ⟨rest, h⟩)

theorem gives_stringValue? {s v rest : Text} (h : Scalar.string? s = some (v, rest)) :
    Gives (stringValue? s) (.string v) rest := by
  refine ⟨Scalar.string?_length_le h, ?_⟩
  unfold stringValue?
  split
  · next hnone =>
      rw [h] at hnone
      cases hnone
  · next hsome =>
      rw [h] at hsome
      cases hsome
      rfl

theorem gives_writeText (depth : Nat) (s : Text) {rest : Text}
    (hrest : ∀ t, rest ≠ '"' :: t) :
    Gives (value? depth (writeText s ++ rest)) (.string s) rest := by
  have hvalue (t : Text) : value? depth ('"' :: t) = stringValue? ('"' :: t) := by
    rw [value?]
  have hstring := Scalar.string?_writeText s hrest
  rw [writeText, List.append_assoc, List.cons_append] at hstring ⊢
  rw [hvalue]
  exact gives_stringValue? hstring

/-- A list of texts, each with a comma behind it. -/
def writeTexts (ss : List Text) : Text :=
  '[' :: ss.flatMap (fun s => writeText s ++ [',']) ++ [']']

theorem gives_elements?_end {value? : ValueReader} {s rest : Text}
    (hstart : skipLines? false s = some (']' :: rest)) :
    Gives (elements? value? s) [] rest := by
  refine ⟨Nat.le_of_succ_le (skipLines?_length_le hstart), ?_⟩
  rw [elements?.eq_def]
  split
  · next h =>
      rw [hstart] at h
      cases h
  · next h =>
      rw [hstart] at h
      cases h
      rfl
  · next hne h =>
      rw [hstart] at h
      cases h
      exact absurd rfl (hne rest)

theorem gives_elements?_cons {value? : ValueReader} {s start next rest final : Text}
    {v : Value} {vs : List Value} (hstart : skipLines? false s = some start)
    (hclosed : ∀ t, start ≠ ']' :: t) (hvalue : Gives (value? start) v next)
    (hnext : skipLines? false next = some (',' :: rest))
    (hrest : Gives (elements? value? rest) vs final) :
    Gives (elements? value? s) (v :: vs) final := by
  obtain ⟨hlen, hvalue⟩ := hvalue
  obtain ⟨hlen', hrest⟩ := hrest
  have hle := skipLines?_length_le hstart
  have hle' := skipLines?_length_le hnext
  rw [List.length_cons] at hle'
  refine ⟨by omega, ?_⟩
  rw [elements?.eq_def]
  split
  · next h =>
      rw [hstart] at h
      cases h
  · next h =>
      rw [hstart] at h
      cases h
      exact absurd rfl (hclosed _)
  · next h =>
      rw [hstart] at h
      cases h
      rw [hvalue]
      dsimp only
      split
      · next h =>
          rw [hnext] at h
          cases h
      · next h =>
          rw [hnext] at h
          cases h
          rw [hrest]
      · next hcomma => exact absurd hnext (hcomma _)

theorem gives_writeTexts {depth : Nat} (hdepth : 0 < depth) (ss : List Text) (rest : Text) :
    Gives (value? depth (writeTexts ss ++ rest)) (.array (ss.map .string)) rest := by
  obtain ⟨d, rfl⟩ := Nat.exists_eq_add_of_lt hdepth
  rw [Nat.zero_add]
  have helements : Gives (elements? (value? d)
      (ss.flatMap (fun s => writeText s ++ [',']) ++ ']' :: rest)) (ss.map .string) rest := by
    induction ss with
    | nil => exact gives_elements?_end rfl
    | cons s ss ih =>
        rw [List.flatMap_cons, List.append_assoc, List.append_assoc, List.singleton_append]
        refine gives_elements?_cons rfl nofun (gives_writeText d s nofun) ?_ ih
        rfl
  obtain ⟨h, helements⟩ := helements
  have hvalue (t : Text) : value? (d + 1) ('[' :: t) =
      (elements? (value? d) t).map fun (vs, ⟨rest, h⟩) =>
        (.array vs, ⟨rest, Nat.le_trans h (Nat.le_succ _)⟩) := by
    rw [value?]
  rw [writeTexts, List.append_assoc, List.cons_append, List.singleton_append]
  refine ⟨Nat.le_trans h (Nat.le_succ _), ?_⟩
  rw [hvalue, helements]
  rfl

/-- A character that neither ends an unquoted value nor opens one of another kind. -/
def isWordChar (c : Char) : Bool :=
  !(Scalar.endsWord c || c = '"' || c = '\'' || c = '[' || c = '\x7b')

theorem skipBlanks_cons {c : Char} (hspace : c ≠ ' ') (htab : c ≠ '\t') (s : Text) :
    skipBlanks (c :: s) = c :: s :=
  List.dropWhile_cons_of_neg (by simp [hspace, htab])

/-- An unquoted value at the end of its line is the one that its characters write. -/
theorem gives_word (depth : Nat) {w : Text} {v : Value} (rest : Text) (hne : w ≠ [])
    (hw : w.all isWordChar = true) (hv : Scalar.ofWord? w = some v) :
    Gives (value? depth (skipBlanks (w ++ '\n' :: rest))) v ('\n' :: rest) := by
  rw [List.all_eq_true] at hw
  have hends : ∀ c ∈ w, Scalar.endsWord c = false := fun c hc => by
    have hchar := hw c hc
    simp only [isWordChar, Bool.not_eq_true', Bool.or_eq_false_iff] at hchar
    exact hchar.1.1.1.1
  have hword := Scalar.word_newline hends rest
  obtain ⟨c, t, rfl⟩ := List.exists_cons_of_ne_nil hne
  have hhead {d : Char} (hd : isWordChar d = false) : c ≠ d :=
    ne_of_test (hw c (List.mem_cons_self ..)) hd
  have hopen {d : Char} (hd : isWordChar d = false) (s : Text) :
      c :: (t ++ '\n' :: rest) ≠ d :: s := fun h => hhead hd (List.cons.inj h).1
  rw [List.cons_append] at hword ⊢
  rw [skipBlanks_cons (hhead rfl) (hhead rfl)]
  refine ⟨by simp only [List.length_cons, List.length_append]; omega, ?_⟩
  rw [value?]
  · simp only [hword, hv, Option.map_some]
  · exact hopen rfl
  · exact hopen rfl
  · exact hopen rfl
  · exact hopen rfl

/-- A truth value in full. -/
def writeBoolean (b : Bool) : Text := if b then "true".toList else "false".toList

theorem gives_writeBoolean (depth : Nat) (b : Bool) (rest : Text) :
    Gives (value? depth (skipBlanks (writeBoolean b ++ '\n' :: rest))) (.boolean b)
      ('\n' :: rest) := by
  cases b with
  | false => exact gives_word depth rest (w := "false".toList) nofun rfl rfl
  | true => exact gives_word depth rest (w := "true".toList) nofun rfl rfl

theorem isWordChar_of_isDigit {c : Char} (hc : c.isDigit = true) : isWordChar c = true := by
  by_contra h
  simp only [isWordChar, Scalar.endsWord, Bool.not_eq_true', Bool.not_eq_false,
    Bool.or_eq_true, decide_eq_true_eq] at h
  rcases h with (((((((((((rfl | rfl) | rfl) | rfl) | rfl) | rfl) | rfl) | rfl) | rfl) |
    rfl) | rfl) | rfl) <;> cases hc

theorem gives_toDigits (depth : Nat) {n : Nat} (hn : Scalar.inRange n = true) (rest : Text) :
    Gives (value? depth (skipBlanks (Nat.toDigits 10 n ++ '\n' :: rest))) (.integer n)
      ('\n' :: rest) := by
  refine gives_word depth rest (Scalar.digits_ne_nil n) (List.all_eq_true.2 fun c hc => ?_)
    (Scalar.ofWord?_toDigits hn)
  exact isWordChar_of_isDigit (Scalar.isDigit_of_mem_digits hc)

/-! ## Lines -/

/-- A key that need not be written between quotes. -/
structure BareKey (key : Text) : Prop where
  ne_nil : key ≠ []
  bare : ∀ c ∈ key, isBareKeyChar c = true

instance (key : Text) : Decidable (BareKey key) :=
  decidable_of_iff (key ≠ [] ∧ key.all isBareKeyChar = true)
    ⟨fun h => ⟨h.1, List.all_eq_true.1 h.2⟩, fun h => ⟨h.ne_nil, List.all_eq_true.2 h.bare⟩⟩

variable {key : Text}

theorem BareKey.exists_cons (h : BareKey key) :
    ∃ c t, key = c :: t ∧ isBareKeyChar c = true := by
  cases key with
  | nil => exact absurd rfl h.ne_nil
  | cons c t => exact ⟨c, t, rfl, h.bare c (List.mem_cons_self ..)⟩

/-- A character that is not skipped at the beginning of a line. -/
def startsStatement (c : Char) : Bool :=
  !(c = '\n' || c = '\r' || c = ' ' || c = '\t' || c = '#')

theorem skipLines?_cons {c : Char} (hc : startsStatement c = true) (s : Text) :
    skipLines? false (c :: s) = some (c :: s) := by
  simp only [startsStatement, Bool.not_eq_true', Bool.or_eq_false_iff, decide_eq_false_iff_not]
    at hc
  obtain ⟨⟨⟨⟨hnewline, hreturn⟩, hspace⟩, htab⟩, hhash⟩ := hc
  have hblank : ¬ ((c = ' ' || c = '\t') = true) := by simp [hspace, htab]
  unfold skipLines?
  split
  · next h => cases h
  · next h => exact absurd (List.cons.inj h).1 hnewline
  · next h => exact absurd (List.cons.inj h).1 hreturn
  · next h =>
      cases h
      rw [if_neg Bool.false_ne_true, if_neg hblank, if_neg hhash, if_neg hreturn]

theorem startsStatement_of_isBareKeyChar {c : Char} (hc : isBareKeyChar c = true) :
    startsStatement c = true := by
  by_contra h
  simp only [startsStatement, Bool.not_eq_true', Bool.not_eq_false, Bool.or_eq_true,
    decide_eq_true_eq] at h
  rcases h with (((rfl | rfl) | rfl) | rfl) | rfl <;> cases hc

theorem BareKey.simpleKey? (h : BareKey key) {c : Char} (hc : isBareKeyChar c = false)
    (rest : Text) : simpleKey? (key ++ c :: rest) = some (key, c :: rest) := by
  obtain ⟨d, t, hkey, hd⟩ := h.exists_cons
  have htake : (key ++ c :: rest).takeWhile isBareKeyChar = key := by
    rw [List.takeWhile_append_of_pos h.bare,
      List.takeWhile_cons_of_neg (Bool.eq_false_iff.1 hc), List.append_nil]
  have hdrop : (key ++ c :: rest).dropWhile isBareKeyChar = c :: rest := by
    rw [List.dropWhile_append_of_pos h.bare,
      List.dropWhile_cons_of_neg (Bool.eq_false_iff.1 hc)]
  unfold Document.simpleKey?
  split
  · next heq =>
      rw [hkey] at heq
      exact absurd (List.cons.inj heq).1 (ne_of_test hd rfl)
  · next heq =>
      rw [hkey] at heq
      exact absurd (List.cons.inj heq).1 (ne_of_test hd rfl)
  · rw [htake, hdrop]
    split
    · exact absurd rfl h.ne_nil
    · rfl

/-- A key is read up to what stands right behind it. -/
theorem BareKey.keyPath? (h : BareKey key) {c : Char} (hc : isBareKeyChar c = false)
    (hspace : c ≠ ' ') (htab : c ≠ '\t') (hdot : c ≠ '.') (rest : Text) :
    keyPath? (key ++ c :: rest) = some ([key], c :: rest) := by
  have hblanks : skipBlanks (key ++ c :: rest) = key ++ c :: rest := by
    obtain ⟨d, t, rfl, hd⟩ := h.exists_cons
    exact skipBlanks_cons (ne_of_test hd rfl)
      (ne_of_test hd rfl) _
  have hsimple : Document.simpleKey? (skipBlanks (key ++ c :: rest)) =
      some (key, c :: rest) := by
    rw [hblanks, h.simpleKey? hc]
  have hbehind : skipBlanks (c :: rest) = c :: rest := skipBlanks_cons hspace htab rest
  rw [Document.keyPath?.eq_def]
  split
  · next heq =>
      rw [hsimple] at heq
      cases heq
  · next heq =>
      rw [hsimple] at heq
      cases heq
      split
      · next heq =>
          rw [hbehind] at heq
          exact absurd (List.cons.inj heq).1 hdot
      · rw [hbehind]

theorem BareKey.statement?_pair (h : BareKey key) {s rest : Text} {v : Value}
    (hv : Gives (value? maxDepth (skipBlanks s)) v rest) :
    statement? (key ++ '=' :: s) = some (.pair [key] v, rest) := by
  obtain ⟨d, t, hkey, hd⟩ := h.exists_cons
  have hpath := h.keyPath? (c := '=') (by decide) (by decide) (by decide) (by decide) s
  obtain ⟨_, hv⟩ := hv
  unfold statement?
  split
  · next heq =>
      rw [hkey] at heq
      exact absurd (List.cons.inj heq).1 (ne_of_test hd rfl)
  · next heq =>
      rw [hkey] at heq
      exact absurd (List.cons.inj heq).1 (ne_of_test hd rfl)
  · rw [hpath]
    split
    · next heq =>
        cases heq
        rw [hv]
        rfl
    · next hne => exact absurd rfl (hne _ _)

theorem BareKey.statement?_header (h : BareKey key) (rest : Text) :
    statement? ('[' :: (key ++ ']' :: rest)) = some (.header [key], rest) := by
  obtain ⟨d, t, hkey, hd⟩ := h.exists_cons
  have hpath := h.keyPath? (c := ']') (by decide) (by decide) (by decide) (by decide) rest
  unfold statement?
  split
  · next heq =>
      rw [hkey] at heq
      exact absurd (List.cons.inj (List.cons.inj heq).2).1
        (ne_of_test hd rfl)
  · next heq =>
      cases heq
      rw [hpath]
      rfl
  · next hne => exact absurd rfl (hne _)

/-- A statement at the beginning of a document, up to the end of its line. -/
theorem statements?_line {c : Char} {s rest : Text} {statement : Statement}
    (hc : startsStatement c = true)
    (hstatement : statement? (c :: s) = some (statement, '\n' :: rest)) :
    statements? (c :: s) =
      (statements? rest).map fun statements => statement :: statements := by
  have hstart := skipLines?_cons hc s
  have hafter : afterStatement? ('\n' :: rest) = some rest := rfl
  rw [statements?.eq_def]
  split
  · next heq =>
      rw [hstart] at heq
      cases heq
  · next heq =>
      rw [hstart] at heq
      cases heq
  · next heq =>
      rw [hstart] at heq
      cases heq
      split
      · next heq =>
          rw [hstatement] at heq
          cases heq
      · next heq =>
          rw [hstatement] at heq
          cases heq
          split
          · next heq =>
              rw [hafter] at heq
              cases heq
          · next heq =>
              rw [hafter] at heq
              cases heq
              rfl

/-- A header on its line. -/
def headerLine (key : Text) : Text := '[' :: key ++ [']', '\n']

/-- A key and what is written for its value, on their line. -/
def pairLine (key value : Text) : Text := key ++ '=' :: value ++ ['\n']

theorem BareKey.statements?_header (h : BareKey key) (rest : Text) :
    statements? (headerLine key ++ rest) =
      (statements? rest).map fun statements => .header [key] :: statements := by
  have hstatement := h.statement?_header ('\n' :: rest)
  rw [headerLine, List.append_assoc]
  exact statements?_line rfl hstatement

theorem BareKey.statements?_pair (h : BareKey key) {value rest : Text} {v : Value}
    (hv : Gives (value? maxDepth (skipBlanks (value ++ '\n' :: rest))) v ('\n' :: rest)) :
    statements? (pairLine key value ++ rest) =
      (statements? rest).map fun statements => .pair [key] v :: statements := by
  have hstatement := h.statement?_pair hv
  have hline : pairLine key value ++ rest = key ++ '=' :: (value ++ '\n' :: rest) := by
    rw [pairLine, List.append_assoc, List.append_assoc, List.cons_append,
      List.singleton_append]
  rw [hline]
  obtain ⟨d, t, rfl, hd⟩ := h.exists_cons
  exact statements?_line (startsStatement_of_isBareKeyChar hd) hstatement

end Document

/-- A document without a mark in front of it is put together from its statements. -/
theorem parse?_of_statements? {document : Text} {statements : List Document.Statement}
    (hmark : ∀ s, document ≠ '\ufeff' :: s)
    (h : Document.statements? document = some statements) :
    parse? document = (Document.build [] [] statements).map Node.finishEntries := by
  unfold parse?
  dsimp only
  split
  · next hnone =>
      split at hnone
      · exact absurd rfl (hmark _)
      · rw [h] at hnone
        cases hnone
  · next hsome =>
      split at hsome
      · exact absurd rfl (hmark _)
      · rw [h] at hsome
        cases hsome
        rfl

end Tangle.Toml
