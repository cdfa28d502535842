import Tangle.Text.Digit
import Tangle.Toml.Value

/-!
# TOML scalars

Strings in their four spellings, and the unquoted values: booleans, numbers and dates. A reader
takes the text it begins at and gives back the value with the rest, or nothing if the text is
malformed.
-/

namespace Tangle.Toml

/-- A control character that may not stand in a string or a comment. -/
def isControl (c : Char) : Bool := (c < ' ' && c != '\t') || c = '\x7f'

namespace Scalar

/-! ## Strings -/

/-- The character with the code point that `n` hexadecimal digits give, and what follows them. -/
def codePoint? (n : Nat) (s : Text) : Option (Char × Text) :=
  if s.length < n then none
  else
    match Text.number? 16 (s.take n) with
    | none => none
    | some v => if v.isValidChar then some (Char.ofNat v, s.drop n) else none

/-- The character that an escape stands for, from behind its backslash, and what follows it. -/
def escape? : Text → Option (Char × Text)
  | 'b' :: s => some ('\x08', s)
  | 't' :: s => some ('\t', s)
  | 'n' :: s => some ('\n', s)
  | 'f' :: s => some ('\x0c', s)
  | 'r' :: s => some ('\r', s)
  | 'e' :: s => some ('\x1b', s)
  | '"' :: s => some ('"', s)
  | '\\' :: s => some ('\\', s)
  | 'x' :: s => codePoint? 2 s
  | 'u' :: s => codePoint? 4 s
  | 'U' :: s => codePoint? 8 s
  | _ => none

theorem codePoint?_length_le {n : Nat} {s rest : Text} {c : Char}
    (h : codePoint? n s = some (c, rest)) : rest.length ≤ s.length := by
  unfold codePoint? at h
  split at h
  · cases h
  · split at h
    · cases h
    · split at h <;> cases h
      rw [List.length_drop]
      exact Nat.sub_le ..

theorem escape?_length_le {s rest : Text} {c : Char} (h : escape? s = some (c, rest)) :
    rest.length ≤ s.length := by
  unfold escape? at h
  split at h
  case h_9 => exact Nat.le_trans (codePoint?_length_le h) (Nat.le_succ _)
  case h_10 => exact Nat.le_trans (codePoint?_length_le h) (Nat.le_succ _)
  case h_11 => exact Nat.le_trans (codePoint?_length_le h) (Nat.le_succ _)
  all_goals cases h <;> exact Nat.le_succ _

/-- The rest of a basic string, from behind its opening quote. -/
def basic? (s : Text) : Option (Text × Text) :=
  match s with
  | [] => none
  | '"' :: t => some ([], t)
  | '\\' :: t =>
    match _h : escape? t with
    | none => none
    | some (d, rest) => (basic? rest).map fun (v, r) => (d :: v, r)
  | c :: t => if isControl c then none else (basic? t).map fun (v, r) => (c :: v, r)
termination_by s.length
decreasing_by
  · exact Nat.lt_succ_of_le (escape?_length_le _h)
  · exact Nat.lt_succ_self _

/-- The rest of a literal string, from behind its opening quote. -/
def literal? : Text → Option (Text × Text)
  | [] => none
  | '\'' :: t => some ([], t)
  | c :: t => if isControl c then none else (literal? t).map fun (v, r) => (c :: v, r)

/-- The quotes at the end of a multi-line string beyond the three that close it, at most two, if the
string ends here. -/
def closing? (quote : Char) (s : Text) : Option (Text × Text) :=
  let run := s.takeWhile (· = quote)
  if 3 ≤ run.length then
    some (List.replicate (min (run.length - 3) 2) quote, s.drop (min run.length 5))
  else none

/-- What follows a line end. -/
def afterNewline? : Text → Option Text
  | '\n' :: s => some s
  | '\r' :: '\n' :: s => some s
  | _ => none

theorem afterNewline?_length_lt {s rest : Text} (h : afterNewline? s = some rest) :
    rest.length < s.length := by
  unfold afterNewline? at h
  split at h <;> cases h
  · exact Nat.lt_succ_self _
  · exact Nat.lt_succ_of_lt (Nat.lt_succ_self _)

/-- Drops blanks and line ends. -/
def dropSpacing : Text → Text
  | ' ' :: s => dropSpacing s
  | '\t' :: s => dropSpacing s
  | '\n' :: s => dropSpacing s
  | '\r' :: '\n' :: s => dropSpacing s
  | s => s

theorem dropSpacing_length_le (s : Text) : (dropSpacing s).length ≤ s.length := by
  fun_induction dropSpacing s with
  | case5 => exact Nat.le_refl _
  | _ => grind

/-- What follows a backslash at the end of a line, which joins the next text that is not blank. -/
def afterJoin? (s : Text) : Option Text :=
  (afterNewline? (s.dropWhile fun d => d = ' ' || d = '\t')).map dropSpacing

theorem afterJoin?_length_le {s rest : Text} (h : afterJoin? s = some rest) :
    rest.length ≤ s.length := by
  obtain ⟨next, hn, rfl⟩ := Option.map_eq_some_iff.1 h
  have h₁ := (s.dropWhile_sublist fun d => d = ' ' || d = '\t').length_le
  have h₂ := afterNewline?_length_lt hn
  have h₃ := dropSpacing_length_le next
  omega

/-- The rest of a multi-line string, from behind its opening quotes. Line ends in it stay as they
are. -/
def multiline? (quote : Char) (s : Text) : Option (Text × Text) :=
  match s with
  | [] => none
  | c :: t =>
    match closing? quote (c :: t) with
    | some result => some result
    | none =>
      if c = '\\' && quote = '"' then
        match _h : afterJoin? t with
        | some rest => multiline? quote rest
        | none =>
          match _h : escape? t with
          | none => none
          | some (d, rest) => (multiline? quote rest).map fun (v, r) => (d :: v, r)
      else if isControl c && (afterNewline? (c :: t)).isNone then none
      else (multiline? quote t).map fun (v, r) => (c :: v, r)
termination_by s.length
decreasing_by
  · exact Nat.lt_succ_of_le (afterJoin?_length_le _h)
  · exact Nat.lt_succ_of_le (escape?_length_le _h)
  · exact Nat.lt_succ_self _

/-- The string that begins here. -/
def string? : Text → Option (Text × Text)
  | '"' :: '"' :: '"' :: s => multiline? '"' ((afterNewline? s).getD s)
  | '\'' :: '\'' :: '\'' :: s => multiline? '\'' ((afterNewline? s).getD s)
  | '"' :: s => basic? s
  | '\'' :: s => literal? s
  | _ => none

theorem map_rest_length_le {read : Option (Text × Text)} {f : Text → Text} {s v rest : Text}
    (h : read.map (fun (v, r) => (f v, r)) = some (v, rest))
    (ih : ∀ v rest, read = some (v, rest) → rest.length ≤ s.length) : rest.length ≤ s.length := by
  obtain ⟨⟨u, r⟩, hr, hv⟩ := Option.map_eq_some_iff.1 h
  cases hv
  exact ih u rest hr

theorem basic?_length_le {s v rest : Text} (h : basic? s = some (v, rest)) :
    rest.length ≤ s.length := by
  fun_induction basic? s generalizing v rest with
  | case1 => cases h
  | case2 => cases h; exact Nat.le_succ _
  | case3 => cases h
  | case4 t d u he ih =>
    have h₁ := escape?_length_le he
    have h₂ : rest.length ≤ u.length := map_rest_length_le h fun _ _ h => ih h
    rw [List.length_cons]
    omega
  | case5 => cases h
  | case6 c t _ _ _ ih =>
    exact Nat.le_trans (map_rest_length_le h fun _ _ h => ih h) (Nat.le_succ _)

theorem literal?_length_le {s v rest : Text} (h : literal? s = some (v, rest)) :
    rest.length ≤ s.length := by
  fun_induction literal? s generalizing v rest with
  | case1 => cases h
  | case2 => cases h; exact Nat.le_succ _
  | case3 => cases h
  | case4 c t _ _ ih =>
    exact Nat.le_trans (map_rest_length_le h fun _ _ h => ih h) (Nat.le_succ _)

theorem multiline?_length_le {quote : Char} {s v rest : Text}
    (h : multiline? quote s = some (v, rest)) : rest.length ≤ s.length := by
  fun_induction multiline? quote s generalizing v rest with
  | case1 => cases h
  | case2 c t result hc =>
    cases h
    unfold closing? at hc
    dsimp only at hc
    split at hc <;> cases hc
    rw [List.length_drop]
    exact Nat.sub_le ..
  | case3 c t _ _ u hj ih =>
    exact Nat.le_trans (ih h) (Nat.le_trans (afterJoin?_length_le hj) (Nat.le_succ _))
  | case4 => cases h
  | case5 c t _ _ _ d u he ih =>
    have h₁ := escape?_length_le he
    have h₂ : rest.length ≤ u.length := map_rest_length_le h fun _ _ h => ih h
    rw [List.length_cons]
    omega
  | case6 => cases h
  | case7 c t _ _ _ ih =>
    exact Nat.le_trans (map_rest_length_le h fun _ _ h => ih h) (Nat.le_succ _)

theorem string?_length_le {s v rest : Text} (h : string? s = some (v, rest)) :
    rest.length ≤ s.length := by
  have opened (s : Text) : ((afterNewline? s).getD s).length ≤ s.length := by
    cases hn : afterNewline? s with
    | none => exact Nat.le_refl _
    | some r => exact Nat.le_of_lt (afterNewline?_length_lt hn)
  unfold string? at h
  split at h
  · rename_i s
    exact Nat.le_trans (multiline?_length_le h) (Nat.le_trans (opened s) (Nat.le_add_right _ 3))
  · rename_i s
    exact Nat.le_trans (multiline?_length_le h) (Nat.le_trans (opened s) (Nat.le_add_right _ 3))
  · exact Nat.le_trans (basic?_length_le h) (Nat.le_succ _)
  · exact Nat.le_trans (literal?_length_le h) (Nat.le_succ _)
  · cases h

/-! ## Numbers -/

/-- Digits without their underscores, each of which has to stand between two digits. -/
def ungroup? (s : Text) : Option Text :=
  let groups := s.splitOn '_'
  if groups.all fun g => !g.isEmpty then some groups.flatten else none

/-- Takes a sign off. -/
def splitSign : Text → Bool × Text
  | '-' :: s => (true, s)
  | '+' :: s => (false, s)
  | s => (false, s)

/-- Decimal digits without a zero in front. -/
def wholeDigits? (s : Text) : Option Text :=
  match ungroup? s with
  | none => none
  | some ds =>
    if ds.all Char.isDigit && (ds.length = 1 || ds.head? != some '0') then some ds else none

/-- The integers that can be written, those that 64 bits can hold with a sign or without one. -/
def inRange (n : Int) : Bool := -9223372036854775808 ≤ n && n ≤ 18446744073709551615

def integer? (s : Text) : Option Int :=
  let inBase (base : Nat) (ds : Text) : Option Int :=
    ((ungroup? ds).bind (Text.number? base)).map fun n => (n : Int)
  let value : Option Int := match s with
    | '0' :: 'x' :: ds => inBase 16 ds
    | '0' :: 'o' :: ds => inBase 8 ds
    | '0' :: 'b' :: ds => inBase 2 ds
    | _ =>
      let (negative, ds) := splitSign s
      ((wholeDigits? ds).bind (Text.number? 10)).map fun n => if negative then -(n : Int) else n
  value.filter inRange

/-- The digits and the exponent that a fraction and an exponent part add to whole digits. -/
def realOf? (negative : Bool) (whole fraction : Text) (exponent : Int) : Option Real :=
  match Text.number? 10 (whole ++ fraction) with
  | none => none
  | some n =>
    let e := exponent - fraction.length
    let leading : Int := e + (Nat.toDigits 10 n).length
    if n != 0 && 400 < leading then none
    else if n = 0 || leading < -400 then some (.finite negative ⟨0, Decimal.Binary.minExponent⟩)
    else
      (Decimal.Binary.ofRatio (n * Nat.pow 10 e.toNat) (Nat.pow 10 (-e).toNat)).map
        (.finite negative)

/-- The exponent part of a number, from behind its letter. -/
def exponent? (s : Text) : Option Int :=
  let (negative, ds) := splitSign s
  match ungroup? ds with
  | none => none
  | some ds =>
    if ds.all Char.isDigit then
      (Text.number? 10 ds).map fun n => if negative then -(n : Int) else n
    else none

def real? (s : Text) : Option Real :=
  let (negative, t) := splitSign s
  if t = ['i', 'n', 'f'] then some (.infinite negative)
  else if t = ['n', 'a', 'n'] then some .nan
  else
    let isMark c := c = 'e' || c = 'E'
    let body := t.takeWhile fun c => !isMark c
    let power := t.dropWhile fun c => !isMark c
    let exponent := match power with
      | [] => some 0
      | _ :: p => exponent? p
    let fraction := match body.dropWhile (· != '.') with
      | [] => if power.isEmpty then none else some []
      | _ :: f => (ungroup? f).filter fun ds => ds.all Char.isDigit
    match wholeDigits? (body.takeWhile (· != '.')), fraction, exponent with
    | some w, some f, some e => realOf? negative w f e
    | _, _, _ => none

/-! ## Dates and times -/

/-- A number of exactly `n` decimal digits, and what follows it. -/
def fixed? (n : Nat) (s : Text) : Option (Nat × Text) :=
  if s.length < n then none else (Text.number? 10 (s.take n)).map fun v => (v, s.drop n)

/-- How many days a month has. -/
def daysIn (year month : Nat) : Nat :=
  if month = 2 then
    if year % 4 = 0 && (year % 100 != 0 || year % 400 = 0) then 29 else 28
  else if month = 4 || month = 6 || month = 9 || month = 11 then 30
  else 31

/-- What follows the date that begins here. -/
def afterDate? (s : Text) : Option Text :=
  match fixed? 4 s with
  | some (year, '-' :: s) =>
    match fixed? 2 s with
    | some (month, '-' :: s) =>
      match fixed? 2 s with
      | some (day, s) =>
        if 1 ≤ month && month ≤ 12 && 1 ≤ day && day ≤ daysIn year month then some s else none
      | none => none
    | _ => none
  | _ => none

/-- What follows the fraction of a second that begins here, if one does. -/
def afterFraction? : Text → Option Text
  | '.' :: s => if (s.takeWhile Char.isDigit).isEmpty then none else some (s.dropWhile Char.isDigit)
  | s => some s

/-- What follows the time of day that begins here. The seconds may be left out. -/
def afterTime? (s : Text) : Option Text :=
  match fixed? 2 s with
  | some (hour, ':' :: s) =>
    match fixed? 2 s with
    | some (minute, s) =>
      if hour ≤ 23 && minute ≤ 59 then
        match s with
        | ':' :: s =>
          match fixed? 2 s with
          | some (second, s) => if second ≤ 60 then afterFraction? s else none
          | none => none
        | s => some s
      else none
    | none => none
  | _ => none

/-- Whether the text is a time zone, or nothing. -/
def isOffset : Text → Bool
  | [] => true
  | ['Z'] => true
  | ['z'] => true
  | c :: s =>
    (c = '+' || c = '-') &&
      match fixed? 2 s with
      | some (hour, ':' :: s) =>
        match fixed? 2 s with
        | some (minute, []) => hour ≤ 23 && minute ≤ 59
        | _ => false
      | _ => false

/-- Whether the text is a date, a time, or both. -/
def isDatetime (s : Text) : Bool :=
  match afterDate? s with
  | some [] => true
  | some (c :: t) =>
    (c = 'T' || c = 't' || c = ' ') && ((afterTime? t).map isOffset).getD false
  | none => afterTime? s = some []

/-! ## Unquoted values -/

/-- The value that an unquoted run of characters writes. -/
def ofWord? (word : Text) : Option Value :=
  if word = "true".toList then some (.boolean true)
  else if word = "false".toList then some (.boolean false)
  else
    match integer? word with
    | some n => some (.integer n)
    | none =>
      match real? word with
      | some x => some (.real x)
      | none => if isDatetime word then some (.datetime word) else none

/-- Whether a character ends an unquoted value. -/
def endsWord (c : Char) : Bool :=
  c = ' ' || c = '\t' || c = '\n' || c = '\r' || c = ',' || c = ']' || c = '}' || c = '#'

/-- The run of characters that begins here up to one that ends an unquoted value. A date takes a
time behind one space along. -/
def word (s : Text) : Text × Text :=
  let day := s.takeWhile fun c => !endsWord c
  let rest := s.dropWhile fun c => !endsWord c
  match afterDate? day, rest with
  | some [], ' ' :: d :: t =>
    if d.isDigit then
      (day ++ ' ' :: (d :: t).takeWhile (fun c => !endsWord c),
        (d :: t).dropWhile fun c => !endsWord c)
    else (day, rest)
  | _, _ => (day, rest)

theorem word_length_le (s : Text) : (word s).2.length ≤ s.length := by
  have h₁ := (s.dropWhile_sublist fun c => !endsWord c).length_le
  unfold word
  dsimp only
  split
  · rename_i d t _ hr
    split
    · have h₂ := ((d :: t).dropWhile_sublist fun c => !endsWord c).length_le
      rw [hr, List.length_cons] at h₁
      show ((d :: t).dropWhile fun c => !endsWord c).length ≤ _
      omega
    · exact h₁
  · exact h₁

end Scalar

end Tangle.Toml
