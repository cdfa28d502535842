import Tangle.Proofs.Forest
import Tangle.Proofs.Interior

/-!
# A document as a list of marks

The parser does not see how comments are nested. It sees code blocks and
delimiters, one after the other, and cuts the document wherever a comment ends
for it. The pieces it goes on with are no forests any more: an inner comment
has lost its end, and an end without a beginning stands between the blocks that
follow. They are still lists of code blocks and delimiters, and this file has
such lists, the texts that are read as one, and the depth at which a block in
a list is found.

A text is not determined by its marks. When the interior of a comment has been
trimmed, the line end of the last mark is missing, and `Writes` allows for
that.
-/

namespace Tangle

/-- A code block or a delimiter of a comment. -/
inductive Mark where
  | block (fence : Fence)
  | opening
  | closing

namespace Mark

/-- The mark without the line ends behind it. -/
def core : Mark → Text
  | block fence => fence.core
  | opening => Comment.opening
  | closing => Comment.closing

/-- The line ends behind the mark. A blank line follows every code block. -/
def ending : Mark → Text
  | block _ => "\n\n".toList
  | opening => ['\n']
  | closing => ['\n']

/-- The marks as they are written in a document. -/
def written (marks : List Mark) : Text :=
  marks.flatMap fun m => m.core ++ m.ending

@[simp] theorem written_cons (m : Mark) (marks : List Mark) :
    written (m :: marks) = m.core ++ m.ending ++ written marks := rfl

@[simp] theorem written_append (marks marks' : List Mark) :
    written (marks ++ marks') = written marks ++ written marks' :=
  List.flatMap_append

/-- A text that is read as these marks: the line ends behind the last one may
be missing. -/
inductive Writes : List Mark → Text → Prop where
  | nil : Writes [] []
  | last (m : Mark) : Writes [m] m.core
  | cons {marks : List Mark} {s : Text} (m : Mark) (rest : Writes marks s) :
      Writes (m :: marks) (m.core ++ m.ending ++ s)

theorem writes_written (marks : List Mark) : Writes marks (written marks) := by
  induction marks with
  | nil => exact .nil
  | cons m marks ih => exact .cons m ih

/-! ## The edges of a text -/

/-- A mark ends with a backtick, a hyphen or an angle bracket. -/
theorem core_eq_concat (m : Mark) : ∃ s c, m.core = s ++ [c] ∧ isBlank c = false ∧
    (m ≠ closing → c ≠ '>') := by
  cases m with
  | block fence =>
      have hwidth := fence.three_le_width
      obtain ⟨n, hn⟩ : ∃ n, fence.width = n + 1 := ⟨fence.width - 1, by omega⟩
      refine ⟨unlines ((fence.mark ++ fence.info) :: fence.lines) ++
        List.replicate n '`', '`', ?_, by decide, fun _ => by decide⟩
      rw [core, Fence.core, Fence.mark, hn, List.append_assoc,
        ← List.replicate_succ']
  | opening => exact ⟨['<', '!', '-'], '-', rfl, by decide, fun _ => by decide⟩
  | closing => exact ⟨['-', '-'], '>', rfl, by decide, fun h => absurd rfl h⟩

theorem core_ne_nil (m : Mark) : m.core ≠ [] := by
  obtain ⟨s, c, hcore, -⟩ := m.core_eq_concat
  rw [hcore]
  exact List.concat_ne_nil c s

theorem trimEnd_core (m : Mark) : m.core.trimEnd = m.core := by
  obtain ⟨s, c, hcore, hblank, -⟩ := m.core_eq_concat
  rw [hcore, Text.trimEnd_concat s hblank]

theorem isBlank_of_mem_ending (m : Mark) : ∀ c ∈ m.ending, isBlank c = true := by
  cases m with
  | block fence =>
      exact List.forall_mem_cons.2 ⟨rfl, List.forall_mem_singleton.2 rfl⟩
  | opening => exact List.forall_mem_singleton.2 rfl
  | closing => exact List.forall_mem_singleton.2 rfl

theorem ending_eq_concat (m : Mark) : ∃ s, m.ending = s ++ ['\n'] := by
  cases m with
  | block fence => exact ⟨['\n'], rfl⟩
  | opening => exact ⟨[], rfl⟩
  | closing => exact ⟨[], rfl⟩

namespace Writes

theorem eq_nil {s : Text} (h : Writes [] s) : s = [] := by
  cases h
  rfl

theorem ne_nil {m : Mark} {marks : List Mark} {s : Text}
    (h : Writes (m :: marks) s) :
    s ≠ [] := by
  cases h with
  | last => exact m.core_ne_nil
  | cons _ _ => exact fun h => m.core_ne_nil (List.append_eq_nil_iff.1
      (List.append_eq_nil_iff.1 h).1).1

/-- Trimming takes away nothing but the line ends of the last mark. -/
theorem trimEnd {marks : List Mark} {s : Text} (h : Writes marks s) :
    Writes marks s.trimEnd := by
  induction h with
  | nil => exact .nil
  | last m =>
      rw [m.trimEnd_core]
      exact .last m
  | @cons marks s m rest ih =>
      cases marks with
      | nil =>
          rw [rest.eq_nil, List.append_nil,
            Text.trimEnd_append m.isBlank_of_mem_ending,
            m.trimEnd_core]
          exact .last m
      | cons m' marks =>
          rw [Text.trimEnd_append_of_ne_nil _ ih.ne_nil]
          exact .cons m ih

/-- A text that is to be a comment does not end like one already. -/
theorem getLast?_ne {marks : List Mark} {s : Text} (h : Writes marks s)
    (hclosing : closing ∉ marks) : s.getLast? ≠ some '>' := by
  induction h with
  | nil => exact nofun
  | last m =>
      obtain ⟨t, c, hcore, -, hc⟩ := m.core_eq_concat
      have hne : m ≠ closing := Ne.symm (List.ne_of_not_mem_cons hclosing)
      rw [hcore, List.getLast?_concat]
      exact fun h => hc hne (Option.some.inj h)
  | @cons marks s m rest ih =>
      have hrest := ih (List.not_mem_of_not_mem_cons hclosing)
      obtain ⟨t, hending⟩ := m.ending_eq_concat
      cases s with
      | nil =>
          rw [List.append_nil, hending, ← List.append_assoc, List.getLast?_concat]
          exact nofun
      | cons c s =>
          obtain ⟨d, hd⟩ : ∃ d, (c :: s).getLast? = some d :=
            ⟨_, List.getLast?_eq_some_getLast (List.cons_ne_nil c s)⟩
          rwa [List.getLast?_append, hd, Option.some_or, ← hd]

end Writes

/-! ## Depths -/

/-- The blocks with their depths in a list that lies `depth` comments deep. An
end of a comment leads out of all of them. -/
def depths (depth : Nat) : List Mark → List (Fence × Nat)
  | [] => []
  | block fence :: marks => (fence, depth) :: depths depth marks
  | opening :: marks => depths (depth + 1) marks
  | closing :: marks => depths 0 marks

theorem depths_append_closing (marks marks' : List Mark) : ∀ depth : Nat,
    depths depth (marks ++ closing :: marks') =
      depths depth marks ++ depths 0 marks' := by
  induction marks with
  | nil => exact fun _ => rfl
  | cons m marks ih =>
      intro depth
      cases m with
      | block fence => rw [List.cons_append, depths, ih, depths, List.cons_append]
      | opening => rw [List.cons_append, depths, ih, depths]
      | closing => rw [List.cons_append, depths, ih, depths]

theorem depths_replicate_closing (n : Nat) (marks : List Mark) :
    depths 0 (List.replicate n closing ++ marks) = depths 0 marks := by
  induction n with
  | zero => rfl
  | succ n ih => rw [List.replicate_succ, List.cons_append, depths, ih]

theorem le_of_mem_depths {marks : List Mark} (hclosing : closing ∉ marks) :
    ∀ {depth : Nat}, ∀ p ∈ depths depth marks, depth ≤ p.2 := by
  induction marks with
  | nil => exact fun _ h => nomatch h
  | cons m marks ih =>
      intro depth p hp
      have hrest : closing ∉ marks := List.not_mem_of_not_mem_cons hclosing
      cases m with
      | block fence =>
          rcases List.mem_cons.1 hp with rfl | hp
          · exact Nat.le_refl _
          · exact ih hrest p hp
      | opening => exact Nat.le_of_succ_le (ih hrest p hp)
      | closing => exact absurd (List.mem_cons_self ..) hclosing

end Mark

namespace Forest

/-- A forest as it is written, from the beginning to the end. -/
def marks : Forest → List Mark
  | nil => []
  | block fence rest => .block fence :: rest.marks
  | comment children rest => .opening :: (children.marks ++ .closing :: rest.marks)

theorem render_eq_written (f : Forest) : f.render = Mark.written f.marks := by
  induction f with
  | nil => rfl
  | block fence rest ih =>
      rw [render, ih, marks, Mark.written_cons, Mark.core, Mark.ending]
  | comment children rest ihchildren ihrest =>
      simp [render, marks, ihchildren, ihrest, Mark.core, Mark.ending]

/-- Reached depth is the depth in the list of marks. -/
theorem depths_marks (f : Forest) : ∀ written reached : Nat,
    Mark.depths reached f.marks =
      (f.placedIn written reached).map fun p => (p.fence, p.reached) := by
  induction f with
  | nil => exact fun _ _ => rfl
  | block fence rest ih =>
      intro written reached
      rw [marks, Mark.depths, ih written, placedIn, List.map_cons]
  | comment children rest ihchildren ihrest =>
      intro written reached
      rw [marks, Mark.depths, Mark.depths_append_closing,
        ihchildren (written + 1),
        ihrest written, placedIn, List.map_append]

end Forest

end Tangle
