import Tangle.Text

/-!
# Pieces between separators

Cutting a text at a character leaves pieces without it. So pieces from the front
of a text, joined again, are cut in the same places, and they are the front of the
text.
-/

namespace Tangle.Text

theorem not_mem_of_mem_splitOn {separator : Char} {s piece : Text}
    (h : piece ∈ s.splitOn separator) : separator ∉ piece := by
  induction s generalizing piece with
  | nil =>
      rw [List.splitOn_nil, List.mem_singleton] at h
      rw [h]
      exact List.not_mem_nil
  | cons c s ih =>
      rw [List.splitOn_cons_eq_if_modifyHead] at h
      split at h
      · rcases List.mem_cons.1 h with rfl | h
        · exact List.not_mem_nil
        · exact ih h
      · rename_i hc
        cases hs : s.splitOn separator with
        | nil => exact absurd hs (List.splitOn_ne_nil separator s)
        | cons first rest =>
            rw [hs, List.modifyHead_cons] at h
            rcases List.mem_cons.1 h with rfl | h
            · rw [List.mem_cons, not_or]
              refine ⟨fun heq => hc (by simp [← heq]), ih ?_⟩
              rw [hs]
              exact List.mem_cons_self ..
            · exact ih (hs ▸ List.mem_cons_of_mem _ h)

theorem splitOn_intercalate_of_prefix {separator : Char} {s : Text}
    {pieces : List Text} (h : pieces <+: s.splitOn separator) (hne : pieces ≠ []) :
    ([separator].intercalate pieces).splitOn separator = pieces :=
  List.splitOn_intercalate separator
    (fun _ hpiece => not_mem_of_mem_splitOn (h.subset hpiece)) hne

theorem intercalate_prefix (separator : Char) {front pieces : List Text}
    (h : front <+: pieces) :
    [separator].intercalate front <+: [separator].intercalate pieces := by
  induction front generalizing pieces with
  | nil => exact List.nil_prefix
  | cons piece front ih =>
      obtain ⟨rest, rfl, hrest⟩ := List.cons_prefix_iff.1 h
      cases front with
      | nil =>
          cases rest with
          | nil => exact List.prefix_rfl
          | cons next rest =>
              rw [List.intercalate_singleton, List.intercalate_cons_cons,
                List.append_assoc]
              exact List.prefix_append ..
      | cons next front =>
          obtain ⟨rest, rfl, -⟩ := List.cons_prefix_iff.1 hrest
          rw [List.intercalate_cons_cons, List.intercalate_cons_cons]
          exact (List.prefix_append_right_inj _).2 (ih hrest)

theorem intercalate_prefix_of_splitOn {separator : Char} {s : Text} {pieces : List Text}
    (h : pieces <+: s.splitOn separator) : [separator].intercalate pieces <+: s := by
  have hprefix := intercalate_prefix separator h
  rwa [List.intercalate_splitOn] at hprefix

end Tangle.Text
