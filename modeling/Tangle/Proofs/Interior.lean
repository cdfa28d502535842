import Mathlib.Data.List.TakeWhile
import Tangle.Comment
import Tangle.Text.Utf8

/-!
# Trimming and the delimiters of a comment

What `interior?` hands back is the middle of the trimmed literal, with the
delimiters that were found on either side of it. `Stripped` says which of the two
come off: the opening one if the text begins with it, and then the closing one if
what is left ends with it. So no character is taken off as part of both, even where
the two overlap as written, and there is no interior exactly where neither is there.

Nothing of the middle is changed, and at least one delimiter was there to be taken
off; that is why an interior is always smaller than its literal, in whatever
measure counts a delimiter (`interior?_lt`).
-/

namespace Tangle

namespace Text

/-! ## Trimming -/

theorem trimStart_cons {c : Char} (s : Text) (hc : isBlank c = false) :
    trimStart (c :: s) = c :: s :=
  List.dropWhile_cons_of_neg (by rw [hc]; exact Bool.false_ne_true)

theorem trimEnd_append {s w : Text} (hw : ∀ c ∈ w, isBlank c = true) :
    trimEnd (s ++ w) = trimEnd s := by
  have hw' : ∀ c ∈ w.reverse, isBlank c = true :=
    fun c hc => hw c (List.mem_reverse.1 hc)
  rw [trimEnd, List.reverse_append, List.dropWhile_append_of_pos hw', trimEnd]

theorem trimEnd_concat {c : Char} (s : Text) (hc : isBlank c = false) :
    trimEnd (s ++ [c]) = s ++ [c] := by
  have hc' : ¬ isBlank c = true := by rw [hc]; exact Bool.false_ne_true
  rw [trimEnd, List.reverse_append, List.reverse_singleton, List.singleton_append,
    List.dropWhile_cons_of_neg hc', List.reverse_cons, List.reverse_reverse]

theorem trimEnd_append_of_ne_nil (s : Text) {t : Text} (ht : trimEnd t ≠ []) :
    trimEnd (s ++ t) = s ++ trimEnd t := by
  have hdrop : t.reverse.dropWhile isBlank ≠ [] := by
    intro h
    rw [trimEnd, h, List.reverse_nil] at ht
    exact ht rfl
  rw [trimEnd, List.reverse_append, List.dropWhile_append,
    if_neg (by simpa using hdrop), List.reverse_append, List.reverse_reverse,
    trimEnd]

theorem trimEnd_isPrefix (s : Text) : trimEnd s <+: s := by
  rw [← List.reverse_suffix, trimEnd, List.reverse_reverse]
  exact List.dropWhile_suffix _

theorem trimEnd_eq_nil_iff {s : Text} : trimEnd s = [] ↔ ∀ c ∈ s, isBlank c = true := by
  rw [trimEnd, List.reverse_eq_nil_iff, List.dropWhile_eq_nil_iff]
  simp only [List.mem_reverse]

/-- Blanks behind a text are trimmed with it. -/
theorem trim_append {s w : Text} (hw : ∀ c ∈ w, isBlank c = true) :
    trim (s ++ w) = trim s := by
  rw [trim, trim, trimStart, trimStart, List.dropWhile_append]
  split
  · rename_i h
    rw [List.isEmpty_iff.1 h, List.dropWhile_eq_nil_iff.2 hw]
  · exact trimEnd_append hw

theorem trim_sublist (s : Text) : s.trim.Sublist s :=
  (trimEnd_isPrefix _).sublist.trans (List.dropWhile_sublist isBlank)

/-- Blanks in front of a text are trimmed with it. -/
theorem trim_append_of_blank {w : Text} (hw : ∀ c ∈ w, isBlank c = true) (s : Text) :
    trim (w ++ s) = trim s := by
  rw [trim, trimStart, List.dropWhile_append_of_pos hw]
  rfl

theorem not_blank_head?_trimStart {s : Text} :
    ∀ c ∈ s.trimStart.head?, isBlank c = false := by
  intro c hc
  have hhead := List.head?_dropWhile_not isBlank s
  rw [← trimStart, Option.mem_def.1 hc] at hhead
  exact hhead

theorem not_blank_head?_trim {s : Text} : ∀ c ∈ s.trim.head?, isBlank c = false := by
  intro c hc
  obtain ⟨trail, htrail⟩ := trimEnd_isPrefix s.trimStart
  have hhead : s.trimStart.head? = some c := by
    rw [← htrail, List.head?_append, ← trim, Option.mem_def.1 hc, Option.some_or]
  exact not_blank_head?_trimStart c hhead

theorem not_blank_getLast?_trim {s : Text} :
    ∀ c ∈ s.trim.getLast?, isBlank c = false := by
  intro c hc
  rw [trim, trimEnd, List.getLast?_reverse] at hc
  exact not_blank_head?_trimStart c hc

/-- A text is what trimming leaves of it, with blanks around. -/
theorem exists_eq_trim (s : Text) : ∃ lead trail, (∀ c ∈ lead, isBlank c = true) ∧
    (∀ c ∈ trail, isBlank c = true) ∧ s = lead ++ s.trim ++ trail := by
  refine ⟨s.takeWhile isBlank, (s.trimStart.reverse.takeWhile isBlank).reverse,
    fun c hc => List.mem_takeWhile_imp hc,
    fun c hc => List.mem_takeWhile_imp (List.mem_reverse.1 hc), ?_⟩
  have hend : s.trimStart.trimEnd ++ (s.trimStart.reverse.takeWhile isBlank).reverse =
      s.trimStart := by
    rw [trimEnd, ← List.reverse_append, List.takeWhile_append_dropWhile,
      List.reverse_reverse]
  rw [trim, List.append_assoc, hend]
  exact List.takeWhile_append_dropWhile.symm

theorem trim_eq_self {s : Text} (hhead : ∀ c ∈ s.head?, isBlank c = false)
    (hlast : ∀ c ∈ s.getLast?, isBlank c = false) : s.trim = s := by
  have hstart : trimStart s = s := by
    cases s with
    | nil => rfl
    | cons c s => exact trimStart_cons s (hhead c rfl)
  rw [trim, hstart]
  rcases List.eq_nil_or_concat s with rfl | ⟨t, c, rfl⟩
  · rfl
  · rw [List.concat_eq_append] at hlast ⊢
    exact trimEnd_concat t (hlast c List.getLast?_concat)

/-! ## Fixed beginnings and endings -/

theorem dropPrefix?_eq_none_iff {p s : Text} : dropPrefix? p s = none ↔ ¬ p <+: s := by
  rw [Option.eq_none_iff_forall_ne_some]
  constructor
  · rintro h ⟨r, hr⟩
    exact h r (dropPrefix?_eq_some_iff.2 hr.symm)
  · intro h r hr
    exact h ⟨r, (dropPrefix?_eq_some_iff.1 hr).symm⟩

theorem dropSuffix?_eq_some_iff {q s r : Text} :
    dropSuffix? q s = some r ↔ s = r ++ q := by
  constructor
  · intro h
    obtain ⟨r', hr', rfl⟩ := Option.map_eq_some_iff.1 h
    rw [dropPrefix?_eq_some_iff] at hr'
    rw [← List.reverse_reverse s, hr', List.reverse_append, List.reverse_reverse]
  · intro h
    rw [dropSuffix?, Option.map_eq_some_iff]
    refine ⟨r.reverse, ?_, List.reverse_reverse r⟩
    rw [dropPrefix?_eq_some_iff, h, List.reverse_append]

theorem dropSuffix?_eq_none_iff {q s : Text} : dropSuffix? q s = none ↔ ¬ q <:+ s := by
  rw [dropSuffix?, Option.map_eq_none_iff, dropPrefix?_eq_none_iff,
    List.reverse_prefix]

/-- A character that the suffix lacks stays in front of what is left. -/
theorem dropSuffix?_cons {c : Char} {q : Text} (hc : c ∉ q) (s : Text) :
    dropSuffix? q (c :: s) = (dropSuffix? q s).map (c :: ·) := by
  ext r
  rw [Option.map_eq_some_iff, dropSuffix?_eq_some_iff]
  constructor
  · intro h
    cases r with
    | nil =>
        rw [List.nil_append] at h
        exact absurd (h ▸ List.mem_cons_self ..) hc
    | cons d r =>
        obtain ⟨rfl, rfl⟩ := List.cons.inj h
        exact ⟨r, dropSuffix?_eq_some_iff.2 rfl, rfl⟩
  · rintro ⟨r, hr, rfl⟩
    rw [dropSuffix?_eq_some_iff.1 hr, List.cons_append]

end Text

namespace Comment

theorem trim_opening (s : Text) :
    Text.trim (opening ++ s) = Text.trimEnd (opening ++ s) := by
  rw [Text.trim, opening, List.cons_append, Text.trimStart_cons _ (by decide)]

theorem trim_enclosed (s : Text) :
    Text.trim (opening ++ s ++ closing) = opening ++ s ++ closing := by
  refine Text.trim_eq_self ?_ ?_
  · rw [opening, List.append_assoc, List.cons_append, List.head?_cons]
    simp [isBlank]
  · have hlast : (opening ++ s ++ closing).getLast? = some '>' := by
      rw [List.getLast?_append]
      rfl
    rw [hlast]
    simp [isBlank]

/-! ## Interiors -/

/-- A literal that begins with the opening delimiter, once trimmed. -/
theorem interior?_of_opening {literal body : Text}
    (h : literal.trim = opening ++ body) :
    interior? literal = some ((Text.dropSuffix? closing body).getD body) := by
  have hopen : Text.dropPrefix? opening literal.trim = some body := by
    rw [Text.dropPrefix?_eq_some_iff, h]
  simp only [interior?, hopen]

theorem interior?_of_not_opening {literal : Text}
    (h : ¬ opening <+: literal.trim) :
    interior? literal = Text.dropSuffix? closing literal.trim := by
  simp only [interior?, Text.dropPrefix?_eq_none_iff.2 h]

/-- How a text comes apart into an interior and what is taken off in front of it and
behind it. Each delimiter is taken off once if it is there, the closing one from what
the opening one has left. -/
structure Stripped (text front interior back : Text) : Prop where
  split : text = front ++ interior ++ back
  front_cases : front = [] ∨ front = opening
  back_cases : back = [] ∨ back = closing
  front_or_back : front = opening ∨ back = closing
  takes_opening : opening <+: text → front = opening
  takes_closing : closing <:+ interior ++ back → back = closing

namespace Stripped

variable {literal text front interior back : Text}

/-- Behind the opening delimiter it is the closing one that matters. -/
theorem of_opening (hsplit : text = opening ++ (interior ++ back))
    (hback : back = [] ∨ back = closing)
    (htakes : closing <:+ interior ++ back → back = closing) :
    Stripped text opening interior back where
  split := by rw [List.append_assoc, hsplit]
  front_cases := Or.inr rfl
  back_cases := hback
  front_or_back := Or.inl rfl
  takes_opening := fun _ => rfl
  takes_closing := htakes

/-- Without an opening delimiter there has to be a closing one. -/
theorem of_not_opening (hopen : ¬ opening <+: text)
    (hsplit : text = interior ++ closing) : Stripped text [] interior closing where
  split := hsplit
  front_cases := Or.inl rfl
  back_cases := Or.inr rfl
  front_or_back := Or.inr rfl
  takes_opening := fun hbegins => absurd hbegins hopen
  takes_closing := fun _ => rfl

theorem interior?_eq (h : Stripped literal.trim front interior back) :
    interior? literal = some interior := by
  by_cases hopen : opening <+: literal.trim
  · have hbody : literal.trim = opening ++ (interior ++ back) := by
      rw [h.split, h.takes_opening hopen, List.append_assoc]
    rw [interior?_of_opening hbody]
    rcases h.back_cases with hback | hback
    · have hclose : Text.dropSuffix? closing (interior ++ back) = none := by
        rw [Text.dropSuffix?_eq_none_iff]
        intro hends
        cases hback.symm.trans (h.takes_closing hends)
      rw [hclose, hback, Option.getD_none, List.append_nil]
    · rw [hback, Text.dropSuffix?_eq_some_iff.2 rfl, Option.getD_some]
  · have hfront : front ≠ opening := by
      rintro rfl
      exact hopen ⟨interior ++ back, by rw [h.split, List.append_assoc]⟩
    rw [interior?_of_not_opening hopen, Text.dropSuffix?_eq_some_iff, h.split,
      h.front_cases.resolve_right hfront, h.front_or_back.resolve_left hfront,
      List.nil_append]

end Stripped

theorem exists_stripped {literal interior : Text}
    (h : interior? literal = some interior) :
    ∃ front back, Stripped literal.trim front interior back := by
  by_cases hopen : opening <+: literal.trim
  · obtain ⟨body, hbody⟩ := hopen
    rw [interior?_of_opening hbody.symm, Option.some.injEq] at h
    -- a closing delimiter counts only if all of it is behind the opening one
    cases hclose : Text.dropSuffix? closing body with
    | none =>
        rw [hclose, Option.getD_none] at h
        subst h
        rw [Text.dropSuffix?_eq_none_iff, ← List.append_nil body] at hclose
        rw [← List.append_nil body] at hbody
        exact ⟨opening, [], .of_opening hbody.symm (Or.inl rfl)
          fun hends => absurd hends hclose⟩
    | some inner =>
        rw [hclose, Option.getD_some] at h
        subst h
        rw [Text.dropSuffix?_eq_some_iff] at hclose
        rw [hclose] at hbody
        exact ⟨opening, closing, .of_opening hbody.symm (Or.inr rfl) fun _ => rfl⟩
  · rw [interior?_of_not_opening hopen, Text.dropSuffix?_eq_some_iff] at h
    exact ⟨[], closing, .of_not_opening hopen h⟩

theorem interior?_eq_some_iff {literal interior : Text} :
    interior? literal = some interior ↔
      ∃ front back, Stripped literal.trim front interior back :=
  ⟨exists_stripped, fun ⟨_, _, h⟩ => h.interior?_eq⟩

theorem interior?_eq_none_iff {literal : Text} :
    interior? literal = none ↔
      ¬ opening <+: literal.trim ∧ ¬ closing <:+ literal.trim := by
  by_cases hopen : opening <+: literal.trim
  · obtain ⟨body, hbody⟩ := hopen
    rw [interior?_of_opening hbody.symm]
    exact ⟨nofun, fun h => absurd ⟨body, hbody⟩ h.1⟩
  · rw [interior?_of_not_opening hopen, Text.dropSuffix?_eq_none_iff,
      and_iff_right hopen]

/-- Between two delimiters all is kept, whatever it is. -/
theorem interior?_enclosed {lead trail : Text} (hlead : ∀ c ∈ lead, isBlank c = true)
    (htrail : ∀ c ∈ trail, isBlank c = true) (s : Text) :
    interior? (lead ++ opening ++ s ++ closing ++ trail) = some s := by
  have htrim : Text.trim (lead ++ opening ++ s ++ closing ++ trail) =
      opening ++ (s ++ closing) := by
    rw [Text.trim_append htrail, List.append_assoc, List.append_assoc,
      Text.trim_append_of_blank hlead, ← List.append_assoc, trim_enclosed,
      List.append_assoc]
  rw [interior?_of_opening htrim, Text.dropSuffix?_eq_some_iff.2 rfl, Option.getD_some]

/-- An interior is smaller than its literal, in any measure that adds up and counts
the delimiters. -/
theorem interior?_lt (size : Text → Nat)
    (happend : ∀ s t, size (s ++ t) = size s + size t) (hopening : 0 < size opening)
    (hclosing : 0 < size closing) {literal interior : Text}
    (h : interior? literal = some interior) : size interior < size literal := by
  obtain ⟨front, back, hstripped⟩ := exists_stripped h
  obtain ⟨lead, trail, -, -, hliteral⟩ := Text.exists_eq_trim literal
  have hdelimiter : 0 < size front + size back := by
    rcases hstripped.front_or_back with rfl | rfl
    · exact Nat.add_pos_left hopening (size back)
    · exact Nat.add_pos_right (size front) hclosing
  rw [hliteral, hstripped.split, happend, happend, happend, happend]
  omega

/-- The delimiters of a comment are taken off exactly.

What stands between two of them is the interior, whatever it is and whatever blanks
there are around the comment. Of any literal, trimmed, each delimiter that is there
is taken off once, the closing one from what the opening one has left. So there is no
interior exactly if the trimmed literal neither begins with the one nor ends with the
other, and an interior is shorter than its literal, in characters and in bytes. -/
theorem delimiters_stripped_once :
    (∀ lead s trail : Text, (∀ c ∈ lead, isBlank c = true) →
      (∀ c ∈ trail, isBlank c = true) →
        interior? (lead ++ opening ++ s ++ closing ++ trail) = some s) ∧
    ∀ literal : Text,
      (interior? literal = none ↔
        ¬ opening <+: literal.trim ∧ ¬ closing <:+ literal.trim) ∧
      ∀ interior : Text,
        (interior? literal = some interior ↔
          ∃ front back, Stripped literal.trim front interior back) ∧
        (interior? literal = some interior →
          interior.length < literal.length ∧
          interior.toBytes.length < literal.toBytes.length) := by
  refine ⟨fun lead s trail hlead htrail => interior?_enclosed hlead htrail s,
    fun literal => ⟨interior?_eq_none_iff, fun interior =>
      ⟨interior?_eq_some_iff, fun h => ⟨?_, ?_⟩⟩⟩⟩
  · exact interior?_lt List.length (fun _ _ => List.length_append) (by decide)
      (by decide) h
  · have happend (s t : Text) :
        (s ++ t).toBytes.length = s.toBytes.length + t.toBytes.length := by
      rw [Text.toBytes_append, List.length_append]
    exact interior?_lt (fun s => s.toBytes.length) happend (by decide) (by decide) h

/-- Delimiters and a dash inside of a comment, and two literals in which the
delimiters share dashes. -/
theorem delimiters_stripped_once_overlapping :
    let text : String → Text := String.toList
    (∀ c ∈ text "\u00a0\n", isBlank c = true) ∧
      (∀ c ∈ text "\t\u3000", isBlank c = true) ∧
      interior? (text "\u00a0\n" ++ opening ++ text " <!-- a --> -" ++ closing ++
        text "\t\u3000") = some (text " <!-- a --> -") ∧
      interior? (text "<!-->") = some (text ">") ∧
      interior? (text "<!--->") = some (text "->") ∧
      (text "->").length < (text "<!--->").length ∧
      (text "->").toBytes.length < (text "<!--->").toBytes.length := by
  intro text
  have hlead : ∀ c ∈ text "\u00a0\n", isBlank c = true := by simp [text, isBlank]
  have htrail : ∀ c ∈ text "\t\u3000", isBlank c = true := by simp [text, isBlank]
  have hone : Stripped (text "<!-->").trim opening (text ">") [] :=
    .of_opening (by decide) (Or.inl rfl) (by decide)
  have htwo : Stripped (text "<!--->").trim opening (text "->") [] :=
    .of_opening (by decide) (Or.inl rfl) (by decide)
  obtain ⟨henclosed, hliteral⟩ := delimiters_stripped_once
  have hinterior := ((hliteral (text "<!--->")).2 _).1.2 ⟨_, _, htwo⟩
  exact ⟨hlead, htrail, henclosed _ _ _ hlead htrail,
    ((hliteral _).2 _).1.2 ⟨_, _, hone⟩, hinterior, ((hliteral _).2 _).2 hinterior⟩

end Comment

end Tangle
