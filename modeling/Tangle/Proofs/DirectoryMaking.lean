import Tangle.Proofs.Places

/-!
# Making directories

Only directories come to be when a directory is made with all that it lies in:
they appear on the way to it, where there was nothing. That holds whether the
attempt succeeds or gives up half way, because every attempt in it makes one
directory or changes nothing (`makeDirectories_made`).
-/

namespace Tangle

namespace FileTree

/-! ## What is at a place -/

theorem find?_set_self {t : FileTree} {l : Location} (entry : Entry)
    (hl : l ≠ []) : (t.set l entry).find? l = some entry := by
  obtain ⟨entries⟩ := t
  rw [find?, if_neg hl]
  dsimp only [set]
  induction entries with
  | nil => simp [set.go]
  | cons e rest ih =>
      by_cases he : e.1 = l
      · simp [set.go, he]
      · rw [set.go, if_neg he, List.find?_cons_of_neg (by simpa using he)]
        exact ih

theorem find?_set_of_ne {t : FileTree} {k l : Location} (entry : Entry)
    (hkl : k ≠ l) : (t.set l entry).find? k = t.find? k := by
  obtain ⟨entries⟩ := t
  rw [find?, find?]
  split
  · rfl
  · dsimp only [set]
    induction entries with
    | nil => simp [set.go, hkl.symm]
    | cons e rest ih =>
        by_cases he : e.1 = l
        · have hek : ¬ e.1 = k := fun hk => hkl (hk.symm.trans he)
          rw [set.go, if_pos he, List.find?_cons_of_neg (by simpa using hek),
            List.find?_cons_of_neg (by simpa using hek)]
        · rw [set.go, if_neg he]
          by_cases hek : e.1 = k
          · rw [List.find?_cons_of_pos (by simpa using hek),
              List.find?_cons_of_pos (by simpa using hek)]
          · rw [List.find?_cons_of_neg (by simpa using hek),
              List.find?_cons_of_neg (by simpa using hek)]
            exact ih

theorem set_set_self (t : FileTree) (l : Location) (a b : Entry) :
    (t.set l a).set l b = t.set l b := by
  obtain ⟨entries⟩ := t
  refine congrArg mk ?_
  change set.go l b (set.go l a entries) = set.go l b entries
  induction entries with
  | nil => exact if_pos rfl
  | cons e rest ih =>
      rw [set.go, set.go]
      split
      · next he => rw [set.go, if_pos he]
      · next he => rw [set.go, if_neg he, ih]

/-- The second tree has new directories, at some of the given places where there
was nothing, and is otherwise the first. -/
def Grown (t t' : FileTree) (places : Location → Prop) : Prop :=
  ∀ l, t'.find? l = t.find? l ∨
    (t.find? l = none ∧ t'.find? l = some .directory ∧ places l)

namespace Grown

variable {t t' t'' : FileTree} {places more : Location → Prop}

theorem refl (t : FileTree) (places : Location → Prop) : t.Grown t places :=
  fun _ => .inl rfl

theorem mono (h : t.Grown t' places) (hsub : ∀ l, places l → more l) :
    t.Grown t' more :=
  fun l => (h l).imp_right fun ⟨hnone, hdir, hl⟩ => ⟨hnone, hdir, hsub l hl⟩

theorem trans (h : t.Grown t' places) (h' : t'.Grown t'' places) :
    t.Grown t'' places := by
  intro l
  rcases h l with heq | ⟨hnone, hdir, hl⟩
  · rw [← heq]
    exact h' l
  · rcases h' l with heq' | ⟨hnone', _⟩
    · exact .inr ⟨hnone, heq'.trans hdir, hl⟩
    · rw [hdir] at hnone'
      cases hnone'

theorem find?_eq (h : t.Grown t' places) {l : Location} {entry : Entry}
    (hl : t.find? l = some entry) : t'.find? l = some entry := by
  rcases h l with heq | ⟨hnone, _⟩
  · exact heq.trans hl
  · rw [hl] at hnone
    cases hnone

end Grown

theorem makeDirectory_ok {t t' : FileTree} {cwd : Location} {p : Text}
    (h : t.makeDirectory cwd p = .ok t') : t.Grown t' (· = locate cwd p) := by
  unfold makeDirectory at h
  split at h
  · cases h
  · cases h
  · rename_i dir name hparent
    obtain ⟨hdir, hname, _⟩ := lookupParent_ok hparent
    split at h
    · cases h
    · rename_i hdots
      split at h
      · cases h
      · split at h
        · cases h
        · rename_i hnone
          cases h
          have hplace := locate_of_name cwd hname.symm
            (Bool.eq_false_iff.2 hdots)
          rw [← hdir] at hplace
          intro l
          by_cases hl : l = dir ++ [name]
          · subst hl
            exact .inr ⟨hnone, find?_set_self _ (by simp), hplace.symm⟩
          · exact .inl (find?_set_of_ne _ hl)

end FileTree

/-! ## Making directories -/

section

variable {w w' : Workspace}

theorem Workspace.bind_run {α β : Type} {x : StateM Workspace α}
    {f : α → StateM Workspace β} {b : β} (h : (x >>= f) w = (b, w')) :
    ∃ a middle, x w = (a, middle) ∧ f a middle = (b, w') := ⟨_, _, rfl, h⟩

/-- All that has happened is that there are new directories, at some of the
places. -/
structure Made (places : Location → Prop) (w w' : Workspace) : Prop where
  cwd : w'.cwd = w.cwd
  umask : w'.umask = w.umask
  faults : w'.faults = w.faults
  grown : w.tree.Grown w'.tree places

namespace Made

variable {places more : Location → Prop}

theorem refl (places : Location → Prop) (w : Workspace) : Made places w w :=
  ⟨rfl, rfl, rfl, .refl _ _⟩

theorem mono (h : Made places w w') (hsub : ∀ l, places l → more l) :
    Made more w w' := ⟨h.cwd, h.umask, h.faults, h.grown.mono hsub⟩

theorem trans {w'' : Workspace} (h : Made places w w')
    (h' : Made places w' w'') : Made places w w'' :=
  ⟨h'.cwd.trans h.cwd, h'.umask.trans h.umask, h'.faults.trans h.faults,
    h.grown.trans h'.grown⟩

end Made

theorem makeDirectory_made {p : Text} {r : Except FileError Unit}
    (h : (FileAccess.makeDirectory p : StateM Workspace _) w = (r, w')) :
    Made (· = FileTree.locate w.cwd p) w w' := by
  change w.update (w.tree.makeDirectory w.cwd p) = (r, w') at h
  cases hm : w.tree.makeDirectory w.cwd p with
  | ok t =>
      rw [hm] at h
      cases h
      exact ⟨rfl, rfl, rfl, FileTree.makeDirectory_ok hm⟩
  | error e =>
      rw [hm] at h
      cases h
      exact .refl _ _

theorem settle_run {p : Text} {e : FileError} {r : Except FileError Unit}
    (h : (makeChain.settle p e : StateM Workspace _) w = (r, w')) : w' = w := by
  unfold makeChain.settle at h
  split at h
  · obtain ⟨there, w₁, hthere, h⟩ := Workspace.bind_run h
    cases hthere
    split at h <;> cases h <;> rfl
  · cases h
    rfl

theorem makeChain_made {chain : List Text} {r : Except FileError Unit}
    (h : (makeChain chain : StateM Workspace _) w = (r, w')) :
    Made (fun l => ∃ q ∈ chain, l = FileTree.locate w.cwd q) w w' := by
  induction chain generalizing w w' r with
  | nil =>
      cases h
      exact .refl _ _
  | cons p outer ih =>
      -- The directory itself, what it lies in, and once more itself: what each
      -- attempt makes is kept, whether or not the next one gets anywhere.
      have htarget {w₁ : Workspace} (hcwd : w₁.cwd = w.cwd) (l : Location)
          (hl : l = FileTree.locate w₁.cwd p) :
          ∃ q ∈ p :: outer, l = FileTree.locate w.cwd q :=
        ⟨p, List.mem_cons_self .., hcwd ▸ hl⟩
      rw [makeChain] at h
      obtain ⟨first, w₁, hfirst, h⟩ := Workspace.bind_run h
      have hm₁ := (makeDirectory_made hfirst).mono (htarget rfl)
      split at h
      · cases h
        exact hm₁
      · obtain ⟨rest, w₂, hrest, h⟩ := Workspace.bind_run h
        have hm₂ := hm₁.trans ((ih hrest).mono fun l ⟨q, hq, hl⟩ =>
          ⟨q, List.mem_cons_of_mem _ hq, hm₁.cwd ▸ hl⟩)
        split at h
        · cases h
          exact hm₂
        · obtain ⟨last, w₃, hlast, h⟩ := Workspace.bind_run h
          have hm₃ := hm₂.trans ((makeDirectory_made hlast).mono (htarget hm₂.cwd))
          split at h
          · cases h
            exact hm₃
          · rw [settle_run h]
            exact hm₃
      · rw [settle_run h]
        exact hm₁

/-- Making a directory, with what it lies in, touches its way only. -/
theorem makeDirectories_made {p : Text} {r : Except FileError Unit}
    (h : (makeDirectories p : StateM Workspace _) w = (r, w')) :
    Made (· ∈ FileTree.way (FileTree.origin w.cwd p) (Path.parts p)) w w' := by
  refine (makeChain_made h).mono fun l ⟨q, hq, hl⟩ => ?_
  obtain ⟨hparts, habs⟩ := parts_of_mem_directoryChain hq
  refine FileTree.mem_way.2 ⟨Path.parts q, hparts, ?_⟩
  rw [hl, FileTree.locate, FileTree.origin, FileTree.origin, habs]

end

end Tangle
