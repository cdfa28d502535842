import Tangle.Proofs.InfoReading

/-!
# How a fenced code block is read

A line that begins with a backtick goes straight to the reader of leaf blocks,
which finds a fence there and nothing else. From then on every line belongs to
the block until one closes it. That the parser and `ClosesFence` mean the same
lines by this is the only step with an argument in it
(`closesFence_of_afterClosingFence?`).
-/

namespace Tangle.Markdown

/-! ## Lines -/

theorem splitLine_append_lineFeed {line : Text} (h : '\n' ∉ line) (rest : Text) :
    splitLine (line ++ '\n' :: rest) = (line ++ ['\n'], rest) := by
  induction line with
  | nil => rfl
  | cons c line ih =>
      have hc : ¬ c = '\n' := Ne.symm (List.ne_of_not_mem_cons h)
      have hline : '\n' ∉ line := List.not_mem_of_not_mem_cons h
      rw [List.cons_append, splitLine, if_neg hc, ih hline]
      rfl

theorem splitLine_of_not_mem {line : Text} (h : '\n' ∉ line) :
    splitLine line = (line, []) := by
  induction line with
  | nil => rfl
  | cons c line ih =>
      have hc : ¬ c = '\n' := Ne.symm (List.ne_of_not_mem_cons h)
      have hline : '\n' ∉ line := List.not_mem_of_not_mem_cons h
      rw [splitLine, if_neg hc, ih hline]

theorem unifyLineEnd_of_not_mem {s : Text} (h : '\r' ∉ s) :
    unifyLineEnd s = s := by
  induction s with
  | nil => rfl
  | cons c s ih =>
      have hc : c ≠ '\r' := Ne.symm (List.ne_of_not_mem_cons h)
      rw [unifyLineEnd, ih (List.not_mem_of_not_mem_cons h)]
      exact fun _ hreturn _ => hc hreturn

theorem lineText_of_not_mem {line : Text} (h : '\r' ∉ line) :
    Leaf.lineText 0 line = line := by
  rw [Leaf.lineText, unifyLineEnd_of_not_mem h]
  rfl

theorem runLength_replicate {c : Char} {s : Text} (h : s.head? ≠ some c)
    (n : Nat) :
    runLength c (List.replicate n c ++ s) = n := by
  induction n with
  | zero =>
      cases s with
      | nil => rfl
      | cons d s =>
          have hd : d ≠ c := fun hd => h (by rw [hd, List.head?_cons])
          simp [runLength, hd]
  | succ n ih =>
      rw [List.replicate_succ, List.cons_append, runLength, if_pos rfl, ih]

theorem replicate_runLength_append (c : Char) (s : Text) :
    List.replicate (runLength c s) c ++ s.drop (runLength c s) = s := by
  induction s with
  | nil => rfl
  | cons d s ih =>
      rw [runLength]
      split
      · rename_i hd
        rw [List.replicate_succ, List.cons_append, List.drop_succ_cons, ih, hd]
      · rfl

theorem exists_spaces_append_dropWhile (s : Text) :
    ∃ n, Text.spaces n ++ s.dropWhile (· = ' ') = s := by
  induction s with
  | nil => exact ⟨0, rfl⟩
  | cons c s ih =>
      by_cases hc : c = ' '
      · obtain ⟨n, hn⟩ := ih
        refine ⟨n + 1, ?_⟩
        rw [List.dropWhile_cons_of_pos (by simpa using hc), Text.spaces,
          List.replicate_succ, List.cons_append, hc]
        exact congrArg (' ' :: ·) hn
      · exact ⟨0, by rw [List.dropWhile_cons_of_neg (by simpa using hc)]; rfl⟩

/-- What stands before a line end is the whole line. -/
theorem eq_of_afterLineEnd? {line rest a v r : Text} (hreturn : '\r' ∉ line)
    (hfeed : '\n' ∉ line) (ha : ∀ c ∈ a, c ≠ '\n' ∧ c ≠ '\r')
    (hv : afterLineEnd? v = some r) (h : line ++ '\n' :: rest = a ++ v) :
    line = a := by
  have hend : v.takeWhile (fun c => c ≠ '\n' && c ≠ '\r') = [] := by
    unfold afterLineEnd? at hv
    split at hv <;> first | rfl | cases hv
  have hline : ∀ c ∈ line, (c ≠ '\n' && c ≠ '\r') = true := by
    intro c hc
    have h₁ : c ≠ '\n' := fun e => hfeed (e ▸ hc)
    have h₂ : c ≠ '\r' := fun e => hreturn (e ▸ hc)
    simp [h₁, h₂]
  have hbefore : ∀ c ∈ a, (c ≠ '\n' && c ≠ '\r') = true := by
    intro c hc
    simp [(ha c hc).1, (ha c hc).2]
  have hwhole := congrArg (List.takeWhile fun c => c ≠ '\n' && c ≠ '\r') h
  rw [List.takeWhile_append_of_pos hline, List.takeWhile_append_of_pos hbefore,
    hend, List.append_nil] at hwhole
  simpa using hwhole

/-! ## The lines of a fenced block -/

theorem Cursor.skipText_zero (column : Nat) (s : Text) :
    (skipText column s 0).1 = 0 := by
  simp [skipText]

/-- A text whose first four columns are not all blank begins with the spaces
that were passed. A tab would have reached the fourth column. -/
theorem Cursor.eq_spaces_append_skipText (column : Nat) (s : Text) (n : Nat)
    (hcolumn : column + n = 4) (hmissing : (skipText column s n).1 ≠ 0) :
    ∃ indent, indent + (skipText column s n).1 = n ∧
      s = Text.spaces indent ++ (skipText column s n).2.rest := by
  fun_induction skipText column s n with
  | case1 column s n ih =>
      obtain ⟨indent, hindent, hs⟩ := ih (by omega) hmissing
      refine ⟨indent + 1, by omega, ?_⟩
      rw [Text.spaces, List.replicate_succ, List.cons_append]
      exact congrArg (' ' :: ·) hs
  | case2 column s n h ih =>
      have hzero : n + 1 - (4 - column % 4) = 0 := by omega
      rw [hzero] at hmissing
      exact absurd (skipText_zero 0 s) hmissing
  | case3 column s n h => exact absurd rfl hmissing
  | case4 column s n _ _ => exact ⟨0, Nat.zero_add n, rfl⟩

/-- A line at which the parser closes a block is a closing fence. -/
theorem closesFence_of_afterClosingFence? {width : Nat} {line rest r : Text}
    (hreturn : '\r' ∉ line) (hfeed : '\n' ∉ line)
    (hnear : (Cursor.skipText 0 (line ++ '\n' :: rest) 4).1 ≠ 0)
    (h : Leaf.afterClosingFence? '`' width
      (Cursor.skipText 0 (line ++ '\n' :: rest) 4).2.rest = some r) :
    ClosesFence width line := by
  obtain ⟨indent, hindent, hline⟩ :=
    Cursor.eq_spaces_append_skipText 0 (line ++ '\n' :: rest) 4 rfl hnear
  have hspace {n : Nat} {c : Char} (hc : c ∈ Text.spaces n) :
      c ≠ '\n' ∧ c ≠ '\r' := by
    rw [List.eq_of_mem_replicate hc]
    decide
  generalize (Cursor.skipText 0 (line ++ '\n' :: rest) 4).2.rest = t at h hline
  cases t with
  | nil =>
      -- The line end has not been passed, so the text cannot be at its end.
      have hmem : '\n' ∈ Text.spaces indent := by
        rw [← List.append_nil (Text.spaces indent), ← hline]
        simp
      exact absurd rfl (hspace hmem).1
  | cons c t =>
      rw [Leaf.afterClosingFence?] at h
      split at h
      · cases h
      · rename_i hrun
        have hticks := replicate_runLength_append '`' (c :: t)
        obtain ⟨trailing, htrailing⟩ :=
          exists_spaces_append_dropWhile ((c :: t).drop (runLength '`' (c :: t)))
        rw [← hticks, ← htrailing, ← List.append_assoc,
          ← List.append_assoc] at hline
        refine ⟨indent, runLength '`' (c :: t), trailing, by omega, by omega, ?_⟩
        refine eq_of_afterLineEnd? hreturn hfeed ?_ h hline
        intro d hd
        rcases List.mem_append.1 hd with hd | hd
        · rcases List.mem_append.1 hd with hd | hd
          · exact hspace hd
          · rw [List.eq_of_mem_replicate hd]
            decide
        · exact hspace hd

namespace Leaf

/-- Outside all containers the lines of a block are those of the text. -/
theorem fenced_eq (width : Nat) {s : Text} (h : s ≠ []) :
    fenced [] '`' width 0 s =
      match if (Cursor.skipText 0 s 4).1 = 0 then none
        else afterClosingFence? '`' width (Cursor.skipText 0 s 4).2.rest with
      | some rest => ([], rest)
      | none =>
        (lineText 0 (splitLine s).1 :: (fenced [] '`' width 0 (splitLine s).2).1,
          (fenced [] '`' width 0 (splitLine s).2).2) := by
  cases s with
  | nil => exact absurd rfl h
  | cons c t =>
      rw [fenced]
      rfl

theorem fenced_line {width : Nat} {line : Text}
    (hplain : '\r' ∉ line ∧ '\n' ∉ line ∧ '\x00' ∉ line)
    (hinside : ¬ ClosesFence width line) (rest : Text) :
    fenced [] '`' width 0 (line ++ '\n' :: rest) =
      ((line ++ ['\n']) :: (fenced [] '`' width 0 rest).1,
        (fenced [] '`' width 0 rest).2) := by
  have hkept : lineText 0 (line ++ ['\n']) = line ++ ['\n'] := by
    refine lineText_of_not_mem fun hmem => ?_
    rcases List.mem_append.1 hmem with hmem | hmem
    · exact hplain.1 hmem
    · exact absurd (List.mem_singleton.1 hmem) (by decide)
  rw [fenced_eq width (by simp), splitLine_append_lineFeed hplain.2.1, hkept]
  split
  · rename_i r hclosed
    split at hclosed
    · cases hclosed
    · rename_i hnear
      refine absurd ?_ hinside
      exact closesFence_of_afterClosingFence? hplain.1 hplain.2.1 hnear hclosed
  · rfl

theorem fenced_mark {width : Nat} (hwidth : 3 ≤ width) {t r : Text}
    (ht : EndsLine t r) :
    fenced [] '`' width 0 (List.replicate width '`' ++ t) = ([], r) := by
  obtain ⟨n, rfl⟩ : ∃ n, width = n + 1 := ⟨width - 1, by omega⟩
  have hend : afterLineEnd? (t.dropWhile (· = ' ')) = some r := by
    rcases ht with ⟨rfl, rfl⟩ | rfl
    · rfl
    · rw [List.dropWhile_cons_of_neg (by decide), afterLineEnd?]
  have hhead : t.head? ≠ some '`' := by
    rcases ht with ⟨rfl, rfl⟩ | rfl <;> simp
  have hrun := runLength_replicate hhead (n + 1)
  have hdrop : (List.replicate (n + 1) '`' ++ t).drop (n + 1) = t := by
    rw [List.drop_left' List.length_replicate]
  have hclosed : afterClosingFence? '`' (n + 1)
      (List.replicate (n + 1) '`' ++ t) = some r := by
    rw [List.replicate_succ, List.cons_append] at hrun hdrop ⊢
    rw [afterClosingFence?, hrun, if_neg (Nat.lt_irrefl _), hdrop, hend]
  have hskip : Cursor.skipText 0 (List.replicate (n + 1) '`' ++ t) 4 =
      (4, ⟨List.replicate (n + 1) '`' ++ t, 0, 0⟩) := by
    rw [List.replicate_succ, List.cons_append]
    simp [Cursor.skipText]
  rw [fenced_eq _ (by simp), hskip]
  dsimp only
  rw [if_neg (by decide), hclosed]

theorem fenced_unlines {width : Nat} (hwidth : 3 ≤ width) {lines : List Text}
    (hplain : ∀ line ∈ lines, '\r' ∉ line ∧ '\n' ∉ line ∧ '\x00' ∉ line)
    (hinside : ∀ line ∈ lines, ¬ ClosesFence width line) {t r : Text}
    (ht : EndsLine t r) :
    fenced [] '`' width 0 (unlines lines ++ (List.replicate width '`' ++ t)) =
      (lines.map (· ++ ['\n']), r) := by
  induction lines with
  | nil => exact fenced_mark hwidth ht
  | cons line lines ih =>
      have hrest := ih (fun l hl => hplain l (List.mem_cons_of_mem _ hl))
        (fun l hl => hinside l (List.mem_cons_of_mem _ hl))
      have hsplit : unlines (line :: lines) ++ (List.replicate width '`' ++ t) =
          line ++ '\n' :: (unlines lines ++ (List.replicate width '`' ++ t)) := by
        simp [unlines]
      rw [hsplit, fenced_line (hplain line (List.mem_cons_self ..))
        (hinside line (List.mem_cons_self ..)), hrest]
      rfl

end Leaf

end Tangle.Markdown

/-! ## The whole block -/

namespace Tangle.Fence

open Markdown

variable (fence : Fence)

/-- The code block as the parser keeps it. -/
def leaf : Leaf := .code (some fence.info) (fence.lines.map (· ++ ['\n']))

theorem core_append (t : Text) :
    fence.core ++ t = fence.mark ++ (fence.info ++ '\n' :: (unlines fence.lines ++
      (fence.mark ++ t))) := by
  simp [core, unlines]

theorem core_eq_cons (t : Text) : ∃ s, fence.core ++ t = '`' :: s := by
  have hwidth := fence.three_le_width
  obtain ⟨n, hn⟩ : ∃ n, fence.width = n + 1 := ⟨fence.width - 1, by omega⟩
  rw [core_append, mark, hn, List.replicate_succ, List.cons_append]
  exact ⟨_, rfl⟩

theorem info_not_mem : '\n' ∉ fence.info ∧ '`' ∉ fence.info :=
  ⟨fence.not_mem_info (by decide) (by decide),
    fence.not_mem_info (by decide) (by decide)⟩

theorem drop_core (t : Text) : (fence.core ++ t).drop fence.width =
    fence.info ++ '\n' :: (unlines fence.lines ++ (fence.mark ++ t)) := by
  rw [core_append, mark, List.drop_left' List.length_replicate]

theorem runLength_core (t : Text) :
    runLength '`' (fence.core ++ t) = fence.width := by
  rw [core_append]
  refine runLength_replicate ?_ fence.width
  cases hinfo : fence.info with
  | nil => simp
  | cons c s =>
      have hc : c ≠ '`' := by
        rintro rfl
        exact fence.info_not_mem.2 (hinfo ▸ List.mem_cons_self ..)
      simpa using hc

theorem fence?_core (t : Text) :
    fence? (fence.core ++ t) = some ('`', fence.width) := by
  have hrun := fence.runLength_core t
  have hdrop := fence.drop_core t
  have hline : '`' ∉ fence.info ++ ['\n'] := by
    intro hmem
    rcases List.mem_append.1 hmem with hmem | hmem
    · exact fence.info_not_mem.2 hmem
    · exact absurd (List.mem_singleton.1 hmem) (by decide)
  obtain ⟨n, hcore⟩ := fence.core_eq_cons t
  rw [hcore] at hrun hdrop ⊢
  rw [fence?]
  rw [if_neg (by simp), hrun, hdrop,
    splitLine_append_lineFeed fence.info_not_mem.1]
  simp [fence.three_le_width, hline]

/-- The parser reads the block and stops behind the line end of its last
line. -/
theorem nextBlock_core {st : State} (hst : st.containers = []) {t r : Text}
    (ht : EndsLine t r) :
    nextBlock st (fence.core ++ t) = (some fence.leaf, st.finishList, r) := by
  have hfence := fence.fence?_core t
  have hdrop := fence.drop_core t
  obtain ⟨s, hcore⟩ := fence.core_eq_cons t
  rw [hcore] at hfence hdrop ⊢
  have hhtml : leafBlock.htmlBlock? [] 0 ('`' :: s) = none := by
    simp [leafBlock.htmlBlock?]
  have hrule : afterThematicBreak? ('`' :: s) = none := by
    simp [afterThematicBreak?]
  have hheading : afterHeadingMarks? ('`' :: s) = none := by
    simp [afterHeadingMarks?, runLength]
  have hitem : Opened.listItem? 0 (.start ('`' :: s)) = none := by
    simp [Opened.listItem?, Cursor.start, afterNumber?]
  rw [nextBlock_visible hst (by decide) (by decide) (by decide) hitem, hhtml,
    hrule, hheading, hfence]
  dsimp only
  rw [hdrop, splitLine_append_lineFeed fence.info_not_mem.1]
  dsimp only
  rw [mark, Leaf.fenced_unlines fence.three_le_width fence.lines_plain
    fence.lines_inside ht, fence.infoString_info, leaf]

/-- What stands behind a block does not change how it is read, and the parser
is outside all containers again. -/
theorem leaves_core {st : State} (hst : st.containers = []) {t r : Text}
    (ht : EndsLine t r) :
    leaves st (fence.core ++ t) = fence.leaf :: leaves st.finishList r := by
  obtain ⟨s, hcore⟩ := fence.core_eq_cons t
  have hnext := fence.nextBlock_core hst ht
  rw [hcore] at hnext ⊢
  rw [leaves_of_nextBlock hnext]
  rfl

end Tangle.Fence
