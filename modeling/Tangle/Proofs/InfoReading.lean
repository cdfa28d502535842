import Tangle.Proofs.Forest
import Tangle.Proofs.Outside
import Tangle.Proofs.TagGrammar

/-!
# How the information behind a fence is read

The tags of a fence come back from its info string: none of their characters
means anything to the reader of info strings, and none of them is blank, so the
spaces between the tags are the only places where the string is cut.
-/

namespace Tangle.Markdown

theorem isBlank_of_isSpacing {c : Char} (h : isSpacing c = true) :
    isBlank c = true := by
  simp only [isSpacing, Bool.or_eq_true] at h
  rcases h with h | h <;> simp [isBlank, h]

theorem unescape_of_not_mem {s : Text} (hescape : '\\' ∉ s) (hreference : '&' ∉ s)
    (hreturn : '\r' ∉ s) : unescape s = s := by
  fun_induction unescape s with
  | case1 => rfl
  | case2 d s _ _ => exact absurd (List.mem_cons_self ..) hescape
  | case3 d s _ _ => exact absurd (List.mem_cons_self ..) hescape
  | case4 s _ _ _ _ => exact absurd (List.mem_cons_self ..) hreference
  | case5 s _ _ => exact absurd (List.mem_cons_self ..) hreference
  | case6 s _ => exact absurd (List.mem_cons_self ..) hreturn
  | case7 c s _ _ _ ih =>
      rw [ih (List.not_mem_of_not_mem_cons hescape)
        (List.not_mem_of_not_mem_cons hreference)
        (List.not_mem_of_not_mem_cons hreturn)]

/-- An info string that begins and ends with something visible is read as it
stands. -/
theorem infoString_lineFeed {info : Text}
    (hfirst : info.head?.all (fun c => !isInlineSpacing c) = true)
    (hlast : info.getLast?.all (fun c => !isSpacing c) = true) :
    infoString (info ++ ['\n']) = unescape info := by
  have hfront : (info ++ ['\n']).dropWhile isInlineSpacing = info ++ ['\n'] := by
    cases info with
    | nil => rfl
    | cons c s =>
        rw [List.head?_cons, Option.all_some, Bool.not_eq_true'] at hfirst
        rw [List.cons_append, List.dropWhile_cons_of_neg (by simp [hfirst])]
  have hback : info.reverse.dropWhile isSpacing = info.reverse := by
    rw [← List.head?_reverse] at hlast
    cases hreverse : info.reverse with
    | nil => rfl
    | cons c s =>
        rw [hreverse, List.head?_cons, Option.all_some,
          Bool.not_eq_true'] at hlast
        rw [List.dropWhile_cons_of_neg (by simp [hlast])]
  rw [infoString, hfront, List.reverse_append, List.reverse_singleton,
    List.singleton_append, List.dropWhile_cons_of_pos (by decide), hback,
    List.reverse_reverse]

end Tangle.Markdown

namespace Tangle

theorem isBlank_of_isTagChar {c : Char} (h : isTagChar c = true) :
    isBlank c = false := by
  simp only [isTagChar, Bool.and_eq_true, Bool.not_eq_true'] at h
  exact h.1.1.1.1

/-! ## Words with spaces between them -/

theorem mem_intercalate_space {words : List Text} {c : Char}
    (h : c ∈ [' '].intercalate words) : c = ' ' ∨ ∃ word ∈ words, c ∈ word := by
  induction words with
  | nil => cases h
  | cons word words ih =>
      cases words with
      | nil =>
          rw [List.intercalate_singleton] at h
          exact Or.inr ⟨word, List.mem_cons_self .., h⟩
      | cons word' words =>
          rw [List.intercalate_cons_cons, List.append_assoc, List.mem_append] at h
          rcases h with h | h
          · exact Or.inr ⟨word, List.mem_cons_self .., h⟩
          · rcases List.mem_cons.1 h with h | h
            · exact Or.inl h
            · rcases ih h with h | ⟨w, hw, h⟩
              · exact Or.inl h
              · exact Or.inr ⟨w, List.mem_cons_of_mem word hw, h⟩

theorem head?_intercalate_space {words : List Text}
    (hwords : ∀ word ∈ words, word ≠ [])
    {c : Char} (h : ([' '].intercalate words).head? = some c) :
    ∃ word ∈ words, c ∈ word := by
  cases words with
  | nil => cases h
  | cons word words =>
      refine ⟨word, List.mem_cons_self .., ?_⟩
      cases words with
      | nil =>
          rw [List.intercalate_singleton] at h
          exact List.mem_of_head? h
      | cons word' words =>
          have hword := hwords word (List.mem_cons_self ..)
          obtain ⟨d, t, rfl⟩ := List.exists_cons_of_ne_nil hword
          rw [List.intercalate_cons_cons, List.append_assoc, List.cons_append,
            List.head?_cons] at h
          exact Option.some.inj h ▸ List.mem_cons_self ..

theorem intercalate_space_ne_nil {word : Text} (hword : word ≠ [])
    (words : List Text) :
    [' '].intercalate (word :: words) ≠ [] := by
  cases words with
  | nil => rwa [List.intercalate_singleton]
  | cons word' words =>
      rw [List.intercalate_cons_cons]
      simp

theorem getLast?_intercalate_space {words : List Text}
    (hwords : ∀ word ∈ words, word ≠ [])
    {c : Char} (h : ([' '].intercalate words).getLast? = some c) :
    ∃ word ∈ words, c ∈ word := by
  induction words with
  | nil => cases h
  | cons word words ih =>
      cases words with
      | nil =>
          rw [List.intercalate_singleton] at h
          exact ⟨word, List.mem_cons_self .., List.mem_of_getLast? h⟩
      | cons word' words =>
          have hrest := intercalate_space_ne_nil (hwords word' (by simp)) words
          rw [List.intercalate_cons_cons, List.getLast?_append,
            List.getLast?_eq_some_getLast hrest, Option.some_or,
            ← List.getLast?_eq_some_getLast hrest] at h
          obtain ⟨w, hw, hc⟩ :=
            ih (fun w hw => hwords w (List.mem_cons_of_mem word hw)) h
          exact ⟨w, List.mem_cons_of_mem word hw, hc⟩

/-! ## Tags -/

namespace Fence

variable (fence : Fence)

theorem not_mem_info {c : Char} (hspace : c ≠ ' ') (hc : isTagChar c = false) :
    c ∉ fence.info := by
  intro hmem
  rcases mem_intercalate_space hmem with h | ⟨tag, htag, h⟩
  · exact hspace h
  · rw [fence.tags_plain tag htag c h] at hc
    cases hc

theorem infoString_info :
    Markdown.infoString (fence.info ++ ['\n']) = fence.info := by
  have hvisible {c : Char} (h : ∃ tag ∈ fence.tags, c ∈ tag) :
      Markdown.isSpacing c = false := by
    obtain ⟨tag, htag, hmem⟩ := h
    have hblank := isBlank_of_isTagChar (fence.tags_plain tag htag c hmem)
    refine Bool.eq_false_iff.2 fun h => ?_
    rw [Markdown.isBlank_of_isSpacing h] at hblank
    cases hblank
  have hfirst :
      fence.info.head?.all (fun c => !Markdown.isInlineSpacing c) = true := by
    rw [Option.all_eq_true]
    intro c hc
    have hspacing := hvisible (head?_intercalate_space fence.tags_ne_nil hc)
    refine (Bool.not_eq_true' _).mpr (Bool.eq_false_iff.2 fun h => ?_)
    rw [Markdown.isSpacing_of_isInlineSpacing h] at hspacing
    cases hspacing
  have hlast :
      fence.info.getLast?.all (fun c => !Markdown.isSpacing c) = true := by
    rw [Option.all_eq_true]
    intro c hc
    rw [hvisible (getLast?_intercalate_space fence.tags_ne_nil hc)]
    rfl
  rw [Markdown.infoString_lineFeed hfirst hlast]
  exact Markdown.unescape_of_not_mem (fence.not_mem_info (by decide) (by decide))
    (fence.not_mem_info (by decide) (by decide))
    (fence.not_mem_info (by decide) (by decide))

theorem isTag_of_mem {tag : Text} (htag : tag ∈ fence.tags) : IsTag tag where
  ne_nil := fence.tags_ne_nil tag htag
  space_not_mem := fun h =>
    absurd (isBlank_of_isTagChar (fence.tags_plain tag htag ' ' h)) (by decide)
  not_blank_head := fun c hc =>
    isBlank_of_isTagChar (fence.tags_plain tag htag c (List.mem_of_head? hc))
  not_blank_last := fun c hc =>
    isBlank_of_isTagChar (fence.tags_plain tag htag c (List.mem_of_getLast? hc))

theorem parseTags_info : parseTags fence.info = fence.tags :=
  (spells_intercalate fun _ => fence.isTag_of_mem).parseTags_eq

end Fence

end Tangle
