import Tangle.Proofs.Preservation
import Tangle.Proofs.WriteEffects

/-!
# Writing a file map again

When the entries of a file map have been written, every one of them stands: the
directories that it needs are there, and a file is at its place. An entry that
stands needs nothing made, so writing it again does one thing to the tree, or it is
refused, and what it does leaves every other entry standing. A second run none of
whose writes breaks off is therefore a fold over the tree (`writeEntries_rewrite`),
whatever the first one had to make.

For a run that truncates, the fold comes to nothing if each file holds the text that
is written there last. That is not so at every step when several entries name one
file. But a text that is written over later on does not matter
(`foldl_rewrite_set`), and what is left are writes that change nothing.
-/

namespace Tangle

namespace FileTree

variable {t t' : FileTree} {cwd k l : Location} {p : Text} {mode : Nat}
  {old content : List UInt8}

/-! ## Putting entries at places -/

theorem ne_root_of_file (hfile : t.find? l = some (.file mode old)) : l ≠ [] := by
  rintro rfl
  cases hfile

/-- The order in which two places are set matters only if both are new. -/
theorem set_comm (hkl : k ≠ l) (hfile : t.find? l = some (.file mode old))
    (a b : Entry) : (t.set k a).set l b = (t.set l b).set k a := by
  obtain ⟨entries⟩ := t
  refine congrArg mk ?_
  change set.go l b (set.go k a entries) = set.go k a (set.go l b entries)
  have hmem : ∃ e ∈ entries, e.1 = l := by
    rw [find?, if_neg (ne_root_of_file hfile)] at hfile
    obtain ⟨e, he, -⟩ := Option.map_eq_some_iff.1 hfile
    exact ⟨e, List.mem_of_find?_eq_some he, by simpa using List.find?_some he⟩
  clear hfile
  induction entries with
  | nil =>
      obtain ⟨e, he, -⟩ := hmem
      cases he
  | cons e rest ih =>
      obtain ⟨key, entry⟩ := e
      by_cases hk : key = k
      · have hl : ¬ key = l := fun h => hkl (hk.symm.trans h)
        rw [set.go, if_pos hk, set.go, if_neg hl, set.go, if_neg hl, set.go,
          if_pos hk]
      · by_cases hl : key = l
        · rw [set.go, if_neg hk, set.go, if_pos hl, set.go, if_pos hl, set.go,
            if_neg hk]
        · have hrest : ∃ e ∈ rest, e.1 = l := by
            obtain ⟨e, he, hel⟩ := hmem
            rcases List.mem_cons.1 he with rfl | he
            · exact absurd hel hl
            · exact ⟨e, he, hel⟩
          rw [set.go, if_neg hk, set.go, if_neg hl, set.go, if_neg hl, set.go,
            if_neg hk, ih hrest]

/-- Setting a place to the file that is there changes nothing. -/
theorem set_eq_self (hfile : t.find? l = some (.file mode old)) :
    t.set l (.file mode old) = t := by
  rw [find?, if_neg (ne_root_of_file hfile)] at hfile
  obtain ⟨entries⟩ := t
  dsimp only at hfile
  refine congrArg mk ?_
  change set.go l (.file mode old) entries = entries
  induction entries with
  | nil => cases hfile
  | cons e rest ih =>
      obtain ⟨key, entry⟩ := e
      rw [set.go]
      split
      · next hkey =>
          rw [List.find?_cons_of_pos (by simpa using hkey)] at hfile
          have hentry : entry = .file mode old := Option.some.inj hfile
          rw [hentry]
      · next hkey =>
          rw [List.find?_cons_of_neg (by simpa using hkey)] at hfile
          rw [ih hfile]

/-! ## Directories that are there -/

theorem holdsDirectory_iff : t.holdsDirectory cwd p = true ↔
    ∃ l, checkPath p = .ok () ∧ t.follow (origin cwd p) (Path.parts p) = .ok l ∧
      t.find? l = some .directory := by
  unfold holdsDirectory
  constructor
  · intro h
    split at h
    · next l hlookup => exact ⟨l, lookup_follow hlookup⟩
    · cases h
  · rintro ⟨l, hcheck, hfollow, hdir⟩
    unfold lookup
    rw [hcheck, hfollow]
    dsimp only
    rw [hdir]

theorem makeDirectory_of_holdsDirectory (h : t.holdsDirectory cwd p = true) :
    t.makeDirectory cwd p = .error .exists := by
  obtain ⟨l, hcheck, hfollow, hdir⟩ := holdsDirectory_iff.1 h
  unfold makeDirectory lookupParent
  rw [hcheck]
  rcases List.eq_nil_or_concat (Path.parts p) with hnil | ⟨front, name, heq⟩
  · rw [hnil] at hfollow ⊢
    cases hfollow
    rw [List.dropLast_nil, follow]
    dsimp only
    rw [hdir]
    rfl
  · rw [List.concat_eq_append] at heq
    rw [heq] at hfollow ⊢
    rw [follow_append] at hfollow
    rw [List.dropLast_concat, List.getLast?_concat]
    cases hdirectory : t.follow (origin cwd p) front with
    | error e => rw [hdirectory] at hfollow; cases hfollow
    | ok dir =>
        rw [hdirectory] at hfollow
        obtain ⟨hthere, hname⟩ := follow_singleton hfollow
        dsimp only
        rw [hthere]
        dsimp only
        split
        · rfl
        · next hdots =>
            obtain ⟨hshort, hentry⟩ := hname (Bool.eq_false_iff.2 hdots)
            rw [if_neg hshort]
            split
            · rfl
            · next hnone => exact absurd hnone hentry

theorem Spared.holdsDirectory {policy : WritePolicy} (h : t.Spared policy t')
    (hdir : t.holdsDirectory cwd p = true) : t'.holdsDirectory cwd p = true := by
  obtain ⟨l, hcheck, hfollow, hthere⟩ := holdsDirectory_iff.1 hdir
  exact holdsDirectory_iff.2
    ⟨l, hcheck, h.follow hfollow, h.find?_directory hthere⟩

theorem holdsDirectory_of_makeDirectory (h : t.makeDirectory cwd p = .ok t') :
    t'.holdsDirectory cwd p = true := by
  have hspared : t.Spared .append t' := (makeDirectory_ok h).spared
  unfold makeDirectory at h
  split at h
  · cases h
  · cases h
  · next dir name hparent =>
      obtain ⟨hcheck, hname, hfollow, hdir⟩ := lookupParent_follow hparent
      split at h
      · cases h
      · next hdots =>
          split at h
          · cases h
          · next hshort =>
              split at h
              · cases h
              · cases h
                obtain ⟨front, hparts⟩ := List.getLast?_eq_some_iff.1 hname.symm
                have hnew := find?_set_self (t := t) (l := dir ++ [name]) .directory
                  (by simp)
                rw [hparts, List.dropLast_concat] at hfollow
                have hthere := follow_concat (hspared.follow hfollow)
                  (hspared.find?_directory hdir) (Bool.eq_false_iff.2 hdots) hshort
                  hnew
                rw [← hparts] at hthere
                exact holdsDirectory_iff.2 ⟨_, hcheck, hthere, hnew⟩

end FileTree

/-! ## Entries that stand -/

section

variable {w w' : Workspace} {style : WriteStyle} {p content : Text}
  {entries : List (Text × Text)} {umask mode : Nat} {old : List UInt8}

theorem directoryChain_eq (p : Text) :
    directoryChain p = [] ∨ ∃ outer, directoryChain p = p :: outer := by
  rw [directoryChain, Path.ancestors]
  cases hparent : Path.parent? p with
  | none =>
      left
      rw [Option.map_none, Option.getD_none, List.filter_cons_of_neg (by simp [hparent]),
        List.filter_nil]
  | some q =>
      right
      rw [List.filter_cons_of_pos (by simp [hparent])]
      exact ⟨_, rfl⟩

theorem settle_ok {e : FileError}
    (h : (makeChain.settle p e : StateM Workspace _) w = (.ok (), w')) :
    w'.tree.holdsDirectory w'.cwd p = true := by
  have hsame := settle_run h
  subst hsame
  unfold makeChain.settle at h
  split at h
  · obtain ⟨there, middle, hthere, h⟩ := Workspace.bind_run h
    split at h
    · next hholds =>
        cases hthere
        exact hholds
    · cases h
  · cases h

theorem makeDirectory_run_ok
    (h : (FileAccess.makeDirectory p : StateM Workspace _) w = (.ok (), w')) :
    w'.tree.holdsDirectory w'.cwd p = true := by
  change w.update (w.tree.makeDirectory w.cwd p) = (.ok (), w') at h
  cases hmade : w.tree.makeDirectory w.cwd p with
  | error e => rw [hmade] at h; cases h
  | ok t =>
      rw [hmade] at h
      cases h
      exact FileTree.holdsDirectory_of_makeDirectory hmade

/-- Directories that have been made are there, if there was one to make. -/
theorem makeDirectories_ok
    (h : (makeDirectories p : StateM Workspace _) w = (.ok (), w')) :
    directoryChain p = [] ∨ w'.tree.holdsDirectory w'.cwd p = true := by
  refine (directoryChain_eq p).imp_right fun ⟨outer, hchain⟩ => ?_
  rw [makeDirectories, hchain, makeChain] at h
  obtain ⟨first, w₁, hfirst, h⟩ := Workspace.bind_run h
  split at h
  · cases h
    exact makeDirectory_run_ok hfirst
  · obtain ⟨rest, w₂, -, h⟩ := Workspace.bind_run h
    split at h
    · cases h
    · obtain ⟨last, w₃, hlast, h⟩ := Workspace.bind_run h
      split at h
      · cases h
        exact makeDirectory_run_ok hlast
      · exact settle_ok h
  · exact settle_ok h

theorem makeDirectories_of_there
    (h : directoryChain p = [] ∨ w.tree.holdsDirectory w.cwd p = true) :
    (makeDirectories p : StateM Workspace _) w = (.ok (), w) := by
  rw [makeDirectories]
  rcases directoryChain_eq p with hchain | ⟨outer, hchain⟩
  · rw [hchain]
    rfl
  · have hthere := h.resolve_left (by rw [hchain]; exact List.cons_ne_nil _ _)
    have hfirst : (FileAccess.makeDirectory p : StateM Workspace _) w =
        (.error .exists, w) := by
      change w.update (w.tree.makeDirectory w.cwd p) = _
      rw [FileTree.makeDirectory_of_holdsDirectory hthere]
      rfl
    have hsettle : (makeChain.settle p .exists : StateM Workspace _) w = (.ok (), w) := by
      rw [makeChain.settle, if_pos rfl]
      change (if w.tree.holdsDirectory w.cwd p then _ else _ : StateM Workspace _) w = _
      rw [if_pos hthere]
      rfl
    rw [hchain, makeChain]
    simp only [bind, StateT.bind, hfirst]
    exact hsettle

/-- What a path needs for a file to be written over: its directories, nothing that
keeps the write away, and the file. -/
structure Standing (w : Workspace) (p : Text) : Prop where
  parent : ∀ q, Path.parent? p = some q → q ≠ [] →
    directoryChain q = [] ∨ w.tree.holdsDirectory w.cwd q = true
  writable : w.tree.Writable w.cwd p
  file : ∃ mode content,
    w.tree.find? (FileTree.locate w.cwd p) = some (.file mode content)

theorem Standing.spared {policy : WritePolicy} (h : Standing w p)
    (hcwd : w'.cwd = w.cwd) (hspared : w.tree.Spared policy w'.tree) :
    Standing w' p := by
  obtain ⟨mode, content, hfile⟩ := h.file
  obtain ⟨new, hnew, -⟩ := hspared.find?_file hfile
  refine ⟨fun q hq hne => ?_, ?_, mode, new, ?_⟩
  · rw [hcwd]
    exact (h.parent q hq hne).imp_right hspared.holdsDirectory
  · rw [hcwd]
    exact h.writable.spared hspared
  · rw [hcwd]
    exact hnew

theorem writeFile_writable
    (h : (writeFile style p content : StateM Workspace _) w = (.ok (), w')) :
    w'.tree.Writable w'.cwd p := by
  obtain ⟨_, _, hopen, rfl⟩ := writeFile_ok h
  exact (FileTree.Writable.of_open hopen).spared (writeFile_spared h)

theorem writeEntry_standing
    (h : (writeEntry style p content : StateM Workspace _) w = (.ok (), w')) :
    Standing w' p := by
  have hwritten := writeEntry_ok h
  have hfile : ∃ mode content,
      w'.tree.find? (FileTree.locate w'.cwd p) = some (.file mode content) := by
    rw [hwritten.cwd]
    exact ⟨_, _, hwritten.find?_place⟩
  rw [writeEntry] at h
  cases hparent : (Path.parent? p).getD [] with
  | nil =>
      rw [hparent] at h
      refine ⟨fun q hq hne => ?_, writeFile_writable h, hfile⟩
      rw [hq] at hparent
      exact absurd hparent hne
  | cons c parent =>
      rw [hparent] at h
      obtain ⟨made, middle, hmade, h⟩ := Workspace.bind_run h
      split at h
      · refine ⟨fun q hq _ => ?_, writeFile_writable h, hfile⟩
        rw [hq] at hparent
        cases hparent
        rw [(writeFile_ok h).cwd]
        exact (makeDirectories_ok hmade).imp_right (writeFile_spared h).holdsDirectory
      · cases h

/-- After a run that succeeds every entry stands. -/
theorem writeEntries_standing {n m : Nat}
    (h : (writeEntries style n entries : StateM Workspace _) w = (.ok m, w')) :
    ∀ e ∈ entries, Standing w' e.1 := by
  induction entries generalizing w n with
  | nil => nofun
  | cons e entries ih =>
      rw [writeEntries] at h
      obtain ⟨first, middle, hentry, hrun⟩ := Workspace.bind_run h
      split at hrun
      · intro f hf
        rcases List.mem_cons.1 hf with rfl | hf
        · exact (writeEntry_standing hentry).spared (writeEntries_ok hrun).2.cwd
            (writeEntries_spared hrun)
        · exact ih hrun f hf
      · cases hrun

/-! ## Writing what stands -/

/-- What writing an entry that stands does to a tree. -/
def rewrite (umask : Nat) (style : WriteStyle) (cwd : Location) (t : FileTree)
    (e : Text × Text) : FileTree :=
  t.set (FileTree.locate cwd e.1) (FileTree.written umask style e.2.toBytes
    (t.find? (FileTree.locate cwd e.1)))

/-- No write of these entries, one after the other, breaks off. -/
def Workspace.Completes (w : Workspace) (entries : List (Text × Text)) : Prop :=
  ∀ (i : Nat) (e : Text × Text) (fault : Fault), entries[i]? = some e →
    w.faults[i]? = some (some fault) → e.2.toBytes.length ≤ fault.arrived

theorem Workspace.completes_of_no_faults (h : w.faults = [])
    (entries : List (Text × Text)) : w.Completes entries := by
  intro i e fault _ hmet
  rw [h] at hmet
  cases hmet

theorem Workspace.Completes.nextFault?_eq_none {e : Text × Text}
    (h : w.Completes (e :: entries)) : w.nextFault? e.2.toBytes = none := by
  refine Option.eq_none_iff_forall_ne_some.2 fun fault hnext => ?_
  obtain ⟨hmet, hshort⟩ := nextFault?_eq_some_iff.1 hnext
  rw [List.head?_eq_getElem?] at hmet
  exact absurd (h 0 e fault rfl hmet) (Nat.not_le.2 hshort)

theorem Workspace.Completes.of_cons {e : Text × Text} (h : w.Completes (e :: entries))
    (hfaults : w'.faults = w.faults.tail) : w'.Completes entries := by
  intro i f fault hentry hmet
  rw [hfaults, List.getElem?_tail] at hmet
  exact h (i + 1) f fault hentry hmet

theorem FileTree.openAt_of_file {t : FileTree} {l : Location} {policy : WritePolicy}
    (hfile : t.find? l = some (.file mode old)) (hpolicy : policy ≠ .createNew)
    (asked : Nat) : ∃ t', t.openAt l policy asked = .ok t' := by
  unfold openAt
  rw [hfile]
  cases policy with
  | append => exact ⟨_, rfl⟩
  | truncate => exact ⟨_, rfl⟩
  | createNew => exact absurd rfl hpolicy

/-- An entry that stands is written at once, with nothing to be made. -/
theorem writeEntry_of_standing {e : Text × Text} (h : Standing w e.1) :
    (writeEntry style e.1 e.2 : StateM Workspace _) w =
      (writeFile style e.1 e.2 : StateM Workspace _) w := by
  rw [writeEntry]
  cases hparent : (Path.parent? e.1).getD [] with
  | nil => rfl
  | cons c parent =>
      have hsome := Path.parent?_of_getD hparent
      have hthere := makeDirectories_of_there (h.parent _ hsome (List.cons_ne_nil _ _))
      simp only [bind, StateT.bind, hthere]

theorem writeEntry_rewrite {e : Text × Text} (h : Standing w e.1)
    (hpolicy : style.policy ≠ .createNew)
    (hnext : w.nextFault? e.2.toBytes = none) :
    (writeEntry style e.1 e.2 : StateM Workspace _) w =
      (.ok (), { w with
        tree := rewrite w.umask style w.cwd w.tree e, faults := w.faults.tail }) := by
  obtain ⟨mode, content, hfile⟩ := h.file
  obtain ⟨t, hat⟩ := FileTree.openAt_of_file hfile hpolicy
    (FileTree.grantedMode w.umask style.mode.bits)
  have hopen := h.writable.open_eq style.policy
    (FileTree.grantedMode w.umask style.mode.bits)
  rw [hat] at hopen
  rw [writeEntry_of_standing h, writeFile_of_open hopen,
    Workspace.extend_of_no_fault (w := { w with tree := t }) hnext]
  dsimp only
  rw [(FileTree.openAt_ok (FileTree.ne_root_of_file hfile) hat).2]
  rfl

theorem writeEntry_refused {e : Text × Text} (h : Standing w e.1)
    (hpolicy : style.policy = .createNew) :
    (writeEntry style e.1 e.2 : StateM Workspace _) w =
      (.error ⟨e.1, .exists⟩, w) := by
  obtain ⟨mode, content, hfile⟩ := h.file
  rw [writeEntry_of_standing h]
  refine writeFile_of_open_error ?_
  rw [h.writable.open_eq]
  unfold FileTree.openAt
  rw [hfile, hpolicy]
  rfl

/-- A run over entries that stand rewrites them one after the other. -/
theorem writeEntries_rewrite (h : ∀ e ∈ entries, Standing w e.1)
    (hpolicy : style.policy ≠ .createNew) (hcompletes : w.Completes entries) (n : Nat) :
    (writeEntries style n entries : StateM Workspace _) w =
      (.ok (n + entries.length), { w with
        tree := entries.foldl (rewrite w.umask style w.cwd) w.tree,
        faults := w.faults.drop entries.length }) := by
  induction entries generalizing w n with
  | nil => rfl
  | cons e entries ih =>
      obtain ⟨hfirst, hrest⟩ := List.forall_mem_cons.1 h
      have hentry := writeEntry_rewrite hfirst hpolicy hcompletes.nextFault?_eq_none
      have hspared := writeEntry_spared hentry
      have hbehind := ih (w := { w with
          tree := rewrite w.umask style w.cwd w.tree e, faults := w.faults.tail })
        (fun f hf => (hrest f hf).spared rfl hspared) (hcompletes.of_cons rfl) (n + 1)
      rw [writeEntries_cons hentry, hbehind, List.length_cons, Nat.add_right_comm,
        Nat.add_assoc, List.foldl_cons, ← List.drop_tail]

/-! ## What comes of the tree -/

theorem find?_foldl_rewrite_of_ne {cwd l : Location}
    (hl : ∀ e ∈ entries, l ≠ FileTree.locate cwd e.1) (t : FileTree) :
    (entries.foldl (rewrite umask style cwd) t).find? l = t.find? l := by
  induction entries generalizing t with
  | nil => rfl
  | cons e entries ih =>
      obtain ⟨hfirst, hrest⟩ := List.forall_mem_cons.1 hl
      rw [List.foldl_cons, ih hrest, rewrite, FileTree.find?_set_of_ne _ hfirst]

theorem find?_rewrite_file {cwd l : Location} {t : FileTree}
    (hfile : t.find? l = some (.file mode old)) (e : Text × Text) :
    ∃ content, (rewrite umask style cwd t e).find? l = some (.file mode content) := by
  by_cases hplace : l = FileTree.locate cwd e.1
  · subst hplace
    have hroot := FileTree.ne_root_of_file hfile
    exact ⟨_, by rw [rewrite, FileTree.find?_set_self _ hroot, hfile]; rfl⟩
  · exact ⟨old, by rw [rewrite, FileTree.find?_set_of_ne _ hplace, hfile]⟩

/-- A text is of no account in a file that is written over later on, since that write
leaves nothing of it. -/
theorem foldl_rewrite_set {cwd l : Location} {t : FileTree}
    (hpolicy : style.policy ≠ .append) (hfile : t.find? l = some (.file mode old))
    (hfiles : ∀ e ∈ entries, ∃ mode old,
      t.find? (FileTree.locate cwd e.1) = some (.file mode old))
    (hlater : ∃ e ∈ entries, FileTree.locate cwd e.1 = l) (content : List UInt8) :
    entries.foldl (rewrite umask style cwd) (t.set l (.file mode content)) =
      entries.foldl (rewrite umask style cwd) t := by
  induction entries generalizing t old with
  | nil =>
      obtain ⟨e, he, -⟩ := hlater
      cases he
  | cons e entries ih =>
      rw [List.foldl_cons, List.foldl_cons]
      by_cases hplace : FileTree.locate cwd e.1 = l
      · have hroot := FileTree.ne_root_of_file hfile
        have hsame : rewrite umask style cwd (t.set l (.file mode content)) e =
            rewrite umask style cwd t e := by
          rw [rewrite, rewrite, hplace, FileTree.find?_set_self _ hroot, hfile,
            FileTree.set_set_self, FileTree.written, FileTree.written,
            FileTree.bytesAfter, FileTree.bytesAfter, if_neg hpolicy, if_neg hpolicy]
          rfl
        rw [hsame]
      · obtain ⟨mode', old', hother⟩ := hfiles e (List.mem_cons_self ..)
        have hcomm : rewrite umask style cwd (t.set l (.file mode content)) e =
            (rewrite umask style cwd t e).set l (.file mode content) := by
          rw [rewrite, FileTree.find?_set_of_ne _ hplace,
            FileTree.set_comm (Ne.symm hplace) hother]
          rfl
        have hkept : (rewrite umask style cwd t e).find? l = some (.file mode old) := by
          rw [rewrite, FileTree.find?_set_of_ne _ (Ne.symm hplace), hfile]
        rw [hcomm]
        refine ih hkept (fun f hf => ?_) ?_
        · obtain ⟨mode, old, hfile⟩ := hfiles f (List.mem_cons_of_mem _ hf)
          exact ⟨mode, find?_rewrite_file hfile e⟩
        · obtain ⟨f, hf, hfl⟩ := hlater
          rcases List.mem_cons.1 hf with rfl | hf
          · exact absurd hfl hplace
          · exact ⟨f, hf, hfl⟩

/-- Every file that entries name holds the last of the texts that they have for it. -/
def HoldsLast (cwd : Location) (entries : List (Text × Text)) (t : FileTree) : Prop :=
  ∀ l last, (textsAt cwd l entries).getLast? = some last →
    FileTree.contentOf (t.find? l) = last.toBytes

theorem HoldsLast.of_cons {cwd : Location} {t : FileTree} {e : Text × Text}
    (h : HoldsLast cwd (e :: entries) t) : HoldsLast cwd entries t := by
  intro l last hlast
  refine h l last ?_
  by_cases hl : l = FileTree.locate cwd e.1
  · subst hl
    rw [textsAt_cons_self, List.getLast?_cons, hlast]
    rfl
  · rw [textsAt_cons_of_ne hl, hlast]

/-- Texts that are there already can be written over without a trace. -/
theorem foldl_rewrite_of_holdsLast {cwd : Location} {t : FileTree}
    (hpolicy : style.policy ≠ .append)
    (hfiles : ∀ e ∈ entries, ∃ mode old,
      t.find? (FileTree.locate cwd e.1) = some (.file mode old))
    (hlast : HoldsLast cwd entries t) :
    entries.foldl (rewrite umask style cwd) t = t := by
  induction entries with
  | nil => rfl
  | cons e entries ih =>
      obtain ⟨⟨mode, old, hfile⟩, hrest⟩ := List.forall_mem_cons.1 hfiles
      have hwritten : rewrite umask style cwd t e =
          t.set (FileTree.locate cwd e.1) (.file mode e.2.toBytes) := by
        rw [rewrite, FileTree.written, FileTree.bytesAfter, if_neg hpolicy, hfile]
        rfl
      rw [List.foldl_cons, hwritten]
      by_cases hlater : ∃ f ∈ entries, FileTree.locate cwd f.1 = FileTree.locate cwd e.1
      · rw [foldl_rewrite_set hpolicy hfile hrest hlater]
        exact ih hrest hlast.of_cons
      · -- this is the last text for its file, so the file holds it
        have hnil : textsAt cwd (FileTree.locate cwd e.1) entries = [] :=
          textsAt_eq_nil_iff.2 fun f hf hplace => hlater ⟨f, hf, hplace⟩
        have hthere := hlast (FileTree.locate cwd e.1) e.2 (by
          rw [textsAt_cons_self, hnil]
          rfl)
        rw [hfile] at hthere
        rw [← hthere]
        change entries.foldl _ (t.set _ (.file mode old)) = t
        rw [FileTree.set_eq_self hfile]
        exact ih hrest hlast.of_cons

theorem Stored.holdsLast (h : Stored style entries w w')
    (hpolicy : style.policy ≠ .append) : HoldsLast w.cwd entries w'.tree := by
  intro l last hlast
  obtain ⟨front, htexts⟩ := List.getLast?_eq_some_iff.1 hlast
  obtain ⟨e, he, rfl⟩ : ∃ e ∈ entries, FileTree.locate w.cwd e.1 = l := by
    by_contra hnone
    have hnil := textsAt_eq_nil_iff.2 fun e he hplace => hnone ⟨e, he, hplace⟩
    rw [hnil] at hlast
    cases hlast
  rw [h.find?_destination he, htexts, bytesAfterAll_concat hpolicy]
  rfl

theorem textsAt_of_distinct {cwd : Location} (hplaces : DistinctPlaces cwd entries)
    {e : Text × Text} (he : e ∈ entries) :
    textsAt cwd (FileTree.locate cwd e.1) entries = [e.2] := by
  induction entries with
  | nil => cases he
  | cons f entries ih =>
      obtain ⟨hplace, hrest⟩ := List.pairwise_cons.1 hplaces
      rcases List.mem_cons.1 he with rfl | he
      · rw [textsAt_cons_self, textsAt_eq_nil_iff.2 fun g hg => (hplace g hg).symm]
      · rw [textsAt_cons_of_ne (hplace e he).symm, ih hrest he]

/-! ## A second run -/

variable {files : FileMap} {n : Nat}

/-- A file map that has been written is written again by rewriting all its entries. -/
theorem writeFileMap_rewrite (again : WriteStyle) (hpolicy : again.policy ≠ .createNew)
    (h : (writeFileMap style files : StateM Workspace _) w = (.ok n, w'))
    (hcompletes : w'.Completes files.entries) :
    (writeFileMap again files : StateM Workspace _) w' =
      (.ok n, { w' with
        tree := files.entries.foldl (rewrite w'.umask again w'.cwd) w'.tree,
        faults := w'.faults.drop files.entries.length }) := by
  rw [writeFileMap, writeEntries_rewrite (writeEntries_standing h) hpolicy hcompletes,
    ← (writeEntries_ok h).1]

theorem writeFileMap_truncate (mode : FileMode)
    (h : (writeFileMap style files : StateM Workspace _) w = (.ok n, w'))
    (hcompletes : w'.Completes files.entries) :
    ∃ w'', (writeFileMap ⟨.truncate, mode⟩ files : StateM Workspace _) w' =
        (.ok n, w'') ∧ w''.cwd = w'.cwd ∧
      (w''.tree = w'.tree ↔ HoldsLast w'.cwd files.entries w'.tree) := by
  have hagain := writeFileMap_rewrite ⟨.truncate, mode⟩ nofun h hcompletes
  refine ⟨_, hagain, rfl, fun hsame => ?_, fun hlast => ?_⟩
  · have hlast := (writeEntries_ok hagain).2.holdsLast nofun
    rwa [hsame] at hlast
  · have hfiles (e : Text × Text) (he : e ∈ files.entries) :=
      (writeEntries_standing h e he).file
    exact foldl_rewrite_of_holdsLast (by nofun) hfiles hlast

theorem writeFileMap_createNew (mode : FileMode)
    (h : (writeFileMap style files : StateM Workspace _) w = (.ok n, w'))
    {e : Text × Text} {rest : List (Text × Text)} (hentries : files.entries = e :: rest) :
    (writeFileMap ⟨.createNew, mode⟩ files : StateM Workspace _) w' =
      (.error ⟨e.1, .exists⟩, w') := by
  have hstanding := writeEntries_standing h e (hentries ▸ List.mem_cons_self ..)
  have hrefused : (writeEntry ⟨.createNew, mode⟩ e.1 e.2 : StateM Workspace _) w' =
      (.error ⟨e.1, .exists⟩, w') := writeEntry_refused hstanding rfl
  rw [writeFileMap, hentries, writeEntries]
  simp only [bind, StateT.bind, hrefused]
  rfl

theorem writeFileMap_append (mode : FileMode)
    (h : (writeFileMap style files : StateM Workspace _) w = (.ok n, w'))
    (hcompletes : w'.Completes files.entries) :
    ∃ w'', (writeFileMap ⟨.append, mode⟩ files : StateM Workspace _) w' =
        (.ok n, w'') ∧ w''.cwd = w'.cwd ∧
      (DistinctPlaces w'.cwd files.entries → ∀ e ∈ files.entries, ∃ mode old,
        w'.tree.find? (FileTree.locate w'.cwd e.1) = some (.file mode old) ∧
        w''.tree.find? (FileTree.locate w'.cwd e.1) =
          some (.file mode (old ++ e.2.toBytes))) ∧
      ∀ l, (∀ e ∈ files.entries, l ≠ FileTree.locate w'.cwd e.1) →
        w''.tree.find? l = w'.tree.find? l := by
  have hagain := writeFileMap_rewrite ⟨.append, mode⟩ nofun h hcompletes
  refine ⟨_, hagain, rfl, fun hplaces e he => ?_,
    fun l hl => find?_foldl_rewrite_of_ne hl w'.tree⟩
  obtain ⟨mode', old, hfile⟩ := (writeEntries_standing h e he).file
  refine ⟨mode', old, hfile, ?_⟩
  rw [(writeEntries_ok hagain).2.find?_destination he, hfile,
    textsAt_of_distinct hplaces he]
  rfl

/-- What becomes of a file map that has been written when it is written again.

If the second run truncates it succeeds, unless a write breaks off. It leaves the tree
as it was exactly if every file holds the last text that goes to it, and so it is
whenever the first run did not append. A run that makes new files only is refused at
the first entry, and nothing changes. A run that appends succeeds, unless a write
breaks off; it adds to each file, if the entries name distinct ones, what the file map
has for it, and changes nothing else. -/
theorem writeFileMap_again (hfiles : files.entries ≠ [])
    (h : (writeFileMap style files : StateM Workspace _) w = (.ok n, w'))
    (mode : FileMode) :
    (w'.Completes files.entries →
      ∃ w'', (writeFileMap ⟨.truncate, mode⟩ files : StateM Workspace _) w' =
          (.ok n, w'') ∧ w''.cwd = w'.cwd ∧
        (style.policy ≠ .append → w''.tree = w'.tree) ∧
        (w''.tree = w'.tree ↔ HoldsLast w'.cwd files.entries w'.tree)) ∧
    (∃ e rest, files.entries = e :: rest ∧
      (writeFileMap ⟨.createNew, mode⟩ files : StateM Workspace _) w' =
        (.error ⟨e.1, .exists⟩, w')) ∧
    (w'.Completes files.entries →
      ∃ w'', (writeFileMap ⟨.append, mode⟩ files : StateM Workspace _) w' =
          (.ok n, w'') ∧ w''.cwd = w'.cwd ∧
        (DistinctPlaces w'.cwd files.entries → ∀ e ∈ files.entries, ∃ mode old,
          w'.tree.find? (FileTree.locate w'.cwd e.1) = some (.file mode old) ∧
          w''.tree.find? (FileTree.locate w'.cwd e.1) =
            some (.file mode (old ++ e.2.toBytes))) ∧
        ∀ l, (∀ e ∈ files.entries, l ≠ FileTree.locate w'.cwd e.1) →
          w''.tree.find? l = w'.tree.find? l) := by
  refine ⟨fun hcompletes => ?_, ?_, writeFileMap_append mode h⟩
  · obtain ⟨w'', hagain, hcwd, hsame⟩ := writeFileMap_truncate mode h hcompletes
    refine ⟨w'', hagain, hcwd, fun hpolicy => hsame.2 ?_, hsame⟩
    obtain ⟨-, hstored⟩ := writeEntries_ok h
    rw [hstored.cwd]
    exact hstored.holdsLast hpolicy
  · obtain ⟨e, rest, hentries⟩ := List.exists_cons_of_ne_nil hfiles
    exact ⟨e, rest, hentries, writeFileMap_createNew mode h hentries⟩

end

/-- Two spellings of one file, whose directory is made, and a file that is replaced:
truncating once more leaves them as they are, and new files cannot be made. -/
theorem writeFileMap_again_twoSpellings :
    let text : String → Text := String.toList
    let w : Workspace := { tree := ⟨[([text "log"], .file 0o644 (text "0").toBytes)]⟩ }
    let files : FileMap := ⟨[(text "d/x", text "A"), (text "log", text "L"),
      (text "./d//x", text "BC")], by decide⟩
    let style : WriteStyle := ⟨.truncate, .ownerOnly⟩
    let w' : Workspace := { tree := ⟨[([text "log"], .file 0o644 (text "L").toBytes),
      ([text "d"], .directory),
      ([text "d", text "x"], .file 0o600 (text "BC").toBytes)]⟩ }
    files.entries ≠ [] ∧
      (writeFileMap style files : StateM Workspace _) w = (.ok 3, w') ∧
      (∃ w'', (writeFileMap style files : StateM Workspace _) w' = (.ok 3, w'') ∧
        w''.tree = w'.tree) ∧
      (writeFileMap ⟨.createNew, .ownerOnly⟩ files : StateM Workspace _) w' =
        (.error ⟨text "d/x", .exists⟩, w') := by
  intro text w files style w'
  have hfiles : files.entries ≠ [] := List.cons_ne_nil _ _
  have hfirst : (writeFileMap style files : StateM Workspace _) w = (.ok 3, w') :=
    Prod.ext (by decide +kernel) (by decide +kernel)
  obtain ⟨htruncate, ⟨e, rest, hentries, hrefused⟩, -⟩ :=
    writeFileMap_again hfiles hfirst .ownerOnly
  obtain ⟨w'', hagain, -, hsame, -⟩ :=
    htruncate (Workspace.completes_of_no_faults rfl files.entries)
  cases hentries
  exact ⟨hfiles, hfirst, ⟨w'', hagain, hsame nofun⟩, hrefused⟩

/-- A text that went behind what was there: truncating leaves the text alone. -/
theorem writeFileMap_truncate_afterAppending :
    let text : String → Text := String.toList
    let holding (content : String) : Workspace :=
      { tree := ⟨[([text "f"], .file 0o644 (text content).toBytes)]⟩ }
    let files : FileMap := ⟨[(text "f", text "B")], by decide⟩
    (writeFileMap {} files : StateM Workspace _) (holding "A") =
        (.ok 1, holding "AB") ∧
      (writeFileMap ⟨.truncate, .ownerOnly⟩ files : StateM Workspace _)
        (holding "AB") = (.ok 1, holding "B") ∧
      holding "B" ≠ holding "AB" := by
  intro text holding files
  exact ⟨Prod.ext (by decide +kernel) (by decide +kernel),
    Prod.ext (by decide +kernel) (by decide +kernel), by decide +kernel⟩

end Tangle
