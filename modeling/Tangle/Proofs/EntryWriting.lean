import Tangle.Output
import Tangle.Proofs.DirectoryMaking

/-!
# Writing entries

Writing an entry that succeeds has an outcome at every place, and the outcome at
a place depends on nothing but the entry and what was at that place before
(`outcome`). A run over many entries is then a fold of outcomes, place by place
(`writeEntries_run`), and questions about the whole tree are questions about
one place at a time.

A write that breaks off has the outcome of writing less: its file has been opened
and holds the bytes that arrived (`BrokenOff`). So both are told by the bytes that
have been put into a file (`Put`).

For a run to say which files there are, it has to be known that no entry undoes
what another one has done. A file never becomes a directory and a directory never
becomes a file, so a place that one entry needs as a directory is no entry's own
place (`Stored.apart`).
-/

namespace Tangle

namespace FileTree

/-- The bytes of the file that is there, if any. -/
def contentOf : Option Entry → List UInt8
  | some (.file _ content) => content
  | _ => []

/-- The mode of a file after it has been written: the one that it has, or the one
that is granted if there is no file. -/
def modeAfter (umask : Nat) (style : WriteStyle) : Option Entry → Nat
  | some (.file mode _) => mode
  | _ => grantedMode umask style.mode.bits

/-- The bytes of a file after some have been written to it. -/
def bytesAfter (policy : WritePolicy) (old bytes : List UInt8) : List UInt8 :=
  if policy = .append then old ++ bytes else bytes

/-- The file that writing bytes leaves, given what is there. -/
def written (umask : Nat) (style : WriteStyle) (bytes : List UInt8)
    (before : Option Entry) : Entry :=
  .file (modeAfter umask style before)
    (bytesAfter style.policy (contentOf before) bytes)

/-- What may be there when a file is written. -/
def Allows (policy : WritePolicy) : Option Entry → Prop
  | none => True
  | some .directory => False
  | some (.file _ _) => policy ≠ .createNew

theorem extendAt_of_file {t : FileTree} {l : Location} {mode : Nat}
    {old : List UInt8} (hfile : t.find? l = some (.file mode old))
    (bytes : List UInt8) :
    t.extendAt l bytes = t.set l (.file mode (old ++ bytes)) := by
  rw [extendAt, hfile]

theorem extendAt_set (t : FileTree) {l : Location} (hl : l ≠ []) (mode : Nat)
    (bytes : List UInt8) :
    (t.set l (.file mode [])).extendAt l bytes = t.set l (.file mode bytes) := by
  rw [extendAt_of_file (find?_set_self _ hl), set_set_self, List.nil_append]

/-- Opening a file and putting bytes into it is one step in the end. -/
theorem openAt_ok {t t' : FileTree} {umask : Nat} {style : WriteStyle}
    {l : Location} (hl : l ≠ [])
    (h : t.openAt l style.policy (grantedMode umask style.mode.bits) = .ok t') :
    Allows style.policy (t.find? l) ∧ ∀ bytes,
      t'.extendAt l bytes = t.set l (written umask style bytes (t.find? l)) := by
  obtain ⟨policy, mode⟩ := style
  unfold openAt at h
  cases hfind : t.find? l with
  | none =>
      rw [hfind] at h
      cases h
      refine ⟨trivial, fun bytes => (extendAt_set t hl _ bytes).trans ?_⟩
      cases policy <;> rfl
  | some entry =>
      rw [hfind] at h
      cases entry with
      | directory => cases h
      | file m old =>
          cases policy with
          | append =>
              cases h
              exact ⟨WritePolicy.noConfusion, extendAt_of_file hfind⟩
          | truncate =>
              cases h
              exact ⟨WritePolicy.noConfusion, extendAt_set t hl m⟩
          | createNew => cases h

/-- What is opened has a name in a directory that the path leads to. -/
theorem openFile_follow {t t' : FileTree} {cwd l : Location} {p : Text}
    {policy : WritePolicy} {mode : Nat}
    (h : t.openFile cwd p policy mode = .ok (l, t')) :
    ∃ dir name, t.lookupParent cwd p = .ok (dir, some name) ∧
      isDots name = false ∧ Path.endsInSlash p = false ∧
      ¬ name.byteLength > maxName ∧ l = dir ++ [name] ∧
      t.openAt (dir ++ [name]) policy mode = .ok t' := by
  unfold openFile at h
  split at h
  · cases h
  · cases h
  · rename_i dir name hparent
    split at h
    · cases h
    · rename_i hdots
      split at h
      · cases h
      · rename_i hslash
        split at h
        · cases h
        · rename_i hshort
          cases hopen : t.openAt (dir ++ [name]) policy mode with
          | error e => rw [hopen] at h; cases h
          | ok opened =>
              rw [hopen] at h
              cases h
              exact ⟨dir, name, hparent, Bool.eq_false_iff.2 hdots,
                Bool.eq_false_iff.2 hslash, hshort, rfl, hopen⟩

/-- Opening a file needs the directories on the way. It is the file at the place
that the path names. -/
theorem openFile_ok {t t' : FileTree} {umask : Nat} {style : WriteStyle}
    {cwd l : Location} {p : Text}
    (h : t.openFile cwd p style.policy (grantedMode umask style.mode.bits) =
      .ok (l, t')) :
    l = locate cwd p ∧ l ≠ [] ∧
      t.Passable (origin cwd p) (Path.parts p).dropLast ∧
      Allows style.policy (t.find? l) ∧
      ∀ bytes, t'.extendAt l bytes =
        t.set l (written umask style bytes (t.find? l)) := by
  obtain ⟨dir, name, hparent, hdots, -, -, rfl, hopen⟩ := openFile_follow h
  obtain ⟨hdir, hname, hway⟩ := lookupParent_ok hparent
  have hne : dir ++ [name] ≠ [] := by simp
  obtain ⟨hallows, hextend⟩ := openAt_ok hne hopen
  have hplace := locate_of_name cwd hname.symm hdots
  rw [← hdir] at hplace
  exact ⟨hplace.symm, hne, hway, hallows, hextend⟩

end FileTree

section

variable {w w' : Workspace}

/-! ## Writing one file -/

/-- Bytes have been put into the file under a path, which was opened for that. -/
inductive Filled (style : WriteStyle) (p : Text) (bytes : List UInt8)
    (w w' : Workspace) : Prop
  | intro (l : Location) (t : FileTree)
      (opened : w.tree.openFile w.cwd p style.policy
        (FileTree.grantedMode w.umask style.mode.bits) = .ok (l, t))
      (filled : w' =
        { w with tree := t.extendAt l bytes, faults := w.faults.tail })

namespace Filled

variable {style : WriteStyle} {p : Text} {bytes : List UInt8}

theorem cwd (h : Filled style p bytes w w') : w'.cwd = w.cwd := by
  obtain ⟨_, _, _, rfl⟩ := h
  rfl

theorem umask (h : Filled style p bytes w w') : w'.umask = w.umask := by
  obtain ⟨_, _, _, rfl⟩ := h
  rfl

theorem faults (h : Filled style p bytes w w') : w'.faults = w.faults.tail := by
  obtain ⟨_, _, _, rfl⟩ := h
  rfl

theorem passable (h : Filled style p bytes w w') :
    w.tree.Passable (FileTree.origin w.cwd p) (Path.parts p).dropLast := by
  obtain ⟨_, _, hopen, -⟩ := h
  exact (FileTree.openFile_ok hopen).2.2.1

theorem allows (h : Filled style p bytes w w') :
    FileTree.Allows style.policy (w.tree.find? (FileTree.locate w.cwd p)) := by
  obtain ⟨_, _, hopen, -⟩ := h
  obtain ⟨hplace, -, -, hallows, -⟩ := FileTree.openFile_ok hopen
  exact hplace ▸ hallows

theorem find?_eq (h : Filled style p bytes w w') (l : Location) :
    w'.tree.find? l = if l = FileTree.locate w.cwd p
      then some (FileTree.written w.umask style bytes (w.tree.find? l))
      else w.tree.find? l := by
  obtain ⟨place, t, hopen, rfl⟩ := h
  obtain ⟨rfl, hroot, -, -, hextend⟩ := FileTree.openFile_ok hopen
  dsimp only
  rw [hextend]
  split
  · rename_i hl
    subst hl
    exact FileTree.find?_set_self _ hroot
  · rename_i hl
    exact FileTree.find?_set_of_ne _ hl

end Filled

theorem Workspace.nextFault?_eq_some_iff {bytes : List UInt8} {fault : Fault} :
    w.nextFault? bytes = some fault ↔
      w.faults.head? = some (some fault) ∧ fault.arrived < bytes.length := by
  rw [nextFault?, Option.filter_eq_some_iff, Option.join_eq_some_iff,
    decide_eq_true_iff]

theorem Workspace.extend_of_no_fault {l : Location} {bytes : List UInt8}
    (h : w.nextFault? bytes = none) :
    w.extend l bytes =
      (.ok (), { w with tree := w.tree.extendAt l bytes, faults := w.faults.tail }) := by
  rw [extend, h]

theorem Workspace.extend_of_fault {l : Location} {bytes : List UInt8} {fault : Fault}
    (h : w.nextFault? bytes = some fault) :
    w.extend l bytes = (.error fault.cause, { w with
      tree := w.tree.extendAt l (bytes.take fault.arrived), faults := w.faults.tail }) := by
  rw [extend, h]

/-- What comes of a file that can be opened is what comes of putting bytes into it. -/
theorem writeFile_of_open {style : WriteStyle} {p content : Text} {l : Location}
    {t : FileTree} (hopen : w.tree.openFile w.cwd p style.policy
      (FileTree.grantedMode w.umask style.mode.bits) = .ok (l, t)) :
    let answer := ({ w with tree := t } : Workspace).extend l content.toBytes
    (writeFile style p content : StateM Workspace _) w =
      (answer.1.mapError (WriteError.mk p), answer.2) := by
  have hopened : (FileAccess.openFile p style.policy style.mode.bits :
      StateM Workspace _) w = (.ok l, { w with tree := t }) := by
    change w.openFile p style.policy style.mode.bits = _
    rw [Workspace.openFile, hopen]
  intro answer
  have hextended : (FileAccess.extend l content.toBytes : StateM Workspace _)
      { w with tree := t } = answer := rfl
  rw [writeFile, FileAccess.write]
  simp only [bind, StateT.bind, hopened, hextended]
  obtain ⟨r, w'⟩ := answer
  cases r <;> rfl

theorem writeFile_of_open_error {style : WriteStyle} {p content : Text}
    {cause : FileError} (hopen : w.tree.openFile w.cwd p style.policy
      (FileTree.grantedMode w.umask style.mode.bits) = .error cause) :
    (writeFile style p content : StateM Workspace _) w = (.error ⟨p, cause⟩, w) := by
  have hopened : (FileAccess.openFile p style.policy style.mode.bits :
      StateM Workspace _) w = (.error cause, w) := by
    change w.openFile p style.policy style.mode.bits = _
    rw [Workspace.openFile, hopen]
  rw [writeFile, FileAccess.write]
  simp only [bind, StateT.bind, hopened]
  rfl

/-- A file is written, or its write breaks off and leaves what has arrived, or it
cannot be opened and nothing happens. -/
theorem writeFile_run {style : WriteStyle} {p content : Text}
    {r : Except WriteError Unit}
    (h : (writeFile style p content : StateM Workspace _) w = (r, w')) :
    (r = .ok () ∧ w.nextFault? content.toBytes = none ∧
      Filled style p content.toBytes w w') ∨
    (∃ fault, r = .error ⟨p, fault.cause⟩ ∧
      w.nextFault? content.toBytes = some fault ∧
      Filled style p (content.toBytes.take fault.arrived) w w') ∨
    (∃ cause, r = .error ⟨p, cause⟩ ∧ w' = w) := by
  cases hopen : w.tree.openFile w.cwd p style.policy
      (FileTree.grantedMode w.umask style.mode.bits) with
  | error cause =>
      rw [writeFile_of_open_error hopen] at h
      cases h
      exact .inr (.inr ⟨cause, rfl, rfl⟩)
  | ok opened =>
      obtain ⟨l, t⟩ := opened
      rw [writeFile_of_open hopen] at h
      cases hfault : w.nextFault? content.toBytes with
      | none =>
          rw [Workspace.extend_of_no_fault (w := { w with tree := t }) hfault] at h
          cases h
          exact .inl ⟨rfl, rfl, l, t, hopen, rfl⟩
      | some fault =>
          rw [Workspace.extend_of_fault (w := { w with tree := t }) hfault] at h
          cases h
          exact .inr (.inl ⟨fault, rfl, rfl, l, t, hopen, rfl⟩)

theorem writeFile_ok {style : WriteStyle} {p content : Text}
    (h : (writeFile style p content : StateM Workspace _) w = (.ok (), w')) :
    Filled style p content.toBytes w w' := by
  obtain ⟨-, -, hfilled⟩ | ⟨_, hr, -⟩ | ⟨_, hr, -⟩ := writeFile_run h
  · exact hfilled
  · cases hr
  · cases hr

/-- However writing a file ends, bytes have been put into it or nothing has happened. -/
theorem writeFile_filled {style : WriteStyle} {p content : Text}
    {r : Except WriteError Unit}
    (h : (writeFile style p content : StateM Workspace _) w = (r, w')) :
    w' = w ∨ ∃ bytes, Filled style p bytes w w' := by
  obtain ⟨-, -, hfilled⟩ | ⟨_, -, -, hfilled⟩ | ⟨_, -, hsame⟩ := writeFile_run h
  · exact .inr ⟨_, hfilled⟩
  · exact .inr ⟨_, hfilled⟩
  · exact .inl hsame

/-! ## Writing one entry -/

theorem Path.parent?_of_getD {p parent : Text} {c : Char}
    (h : (parent? p).getD [] = c :: parent) : parent? p = some (c :: parent) := by
  cases hp : parent? p with
  | none => rw [hp] at h; cases h
  | some q => rw [hp] at h; exact congrArg some h

/-- An entry is written behind directories that are made on its way; it fails at
its file or at the directory that this lies in. -/
theorem writeEntry_run {style : WriteStyle} {p content : Text}
    {r : Except WriteError Unit}
    (h : (writeEntry style p content : StateM Workspace _) w = (r, w')) :
    ∃ middle, Made (· ∈ FileTree.wayTo w.cwd p) w middle ∧
      ((writeFile style p content : StateM Workspace _) middle = (r, w') ∨
        ∃ parent cause, Path.parent? p = some parent ∧
          r = .error ⟨parent, cause⟩ ∧ w' = middle) := by
  rw [writeEntry] at h
  cases hparent : (Path.parent? p).getD [] with
  | nil =>
      rw [hparent] at h
      exact ⟨w, .refl _ w, .inl h⟩
  | cons c parent =>
      rw [hparent] at h
      have hsome := Path.parent?_of_getD hparent
      obtain ⟨hparts, habs⟩ := Path.parts_parent? hsome (List.cons_ne_nil _ _)
      obtain ⟨made, middle, hmake, h⟩ := Workspace.bind_run h
      refine ⟨middle, (makeDirectories_made hmake).mono fun l hl => ?_, ?_⟩
      · -- What is made for the parent lies on the way to the entry, since the
        -- parent's parts are among the entry's own and begin at the same place.
        obtain ⟨front, hfront, rfl⟩ := FileTree.mem_way.1 hl
        rw [FileTree.origin, habs, ← FileTree.origin]
        exact FileTree.mem_way.2 ⟨front, hfront.trans hparts, rfl⟩
      · split at h
        · exact .inl h
        · cases h
          exact .inr ⟨c :: parent, _, hsome, rfl, rfl⟩

/-- What is at a place once bytes have been put under a path, given what was
there. -/
def putAt (umask : Nat) (style : WriteStyle) (cwd l : Location) (p : Text)
    (bytes : List UInt8) (before : Option Entry) : Option Entry :=
  if l = FileTree.locate cwd p
  then some (FileTree.written umask style bytes before)
  else if l ∈ FileTree.wayTo cwd p then some .directory
  else before

/-- Bytes have been put under a path: its place holds the file, the way to it
consists of directories, some of them new perhaps, and nothing else has changed. -/
structure Put (style : WriteStyle) (p : Text) (bytes : List UInt8)
    (w w' : Workspace) : Prop where
  cwd : w'.cwd = w.cwd
  umask : w'.umask = w.umask
  faults : w'.faults = w.faults.tail
  allows : FileTree.Allows style.policy (w.tree.find? (FileTree.locate w.cwd p))
  clear : ∀ l ∈ FileTree.wayTo w.cwd p,
    w.tree.find? l = none ∨ w.tree.find? l = some .directory
  apart : FileTree.locate w.cwd p ∉ FileTree.wayTo w.cwd p
  find?_eq : ∀ l, w'.tree.find? l =
    putAt w.umask style w.cwd l p bytes (w.tree.find? l)

/-- An entry has been written. -/
abbrev Written (style : WriteStyle) (e : Text × Text) (w w' : Workspace) : Prop :=
  Put style e.1 e.2.toBytes w w'

/-- The write of an entry has broken off at a fault: its file is there with the bytes
that had arrived. -/
structure BrokenOff (style : WriteStyle) (e : Text × Text) (fault : Fault)
    (w w' : Workspace) : Prop where
  next : w.faults.head? = some (some fault)
  short : fault.arrived < e.2.toBytes.length
  put : Put style e.1 (e.2.toBytes.take fault.arrived) w w'

theorem Filled.put {style : WriteStyle} {p : Text} {bytes : List UInt8}
    {middle : Workspace} (h : Filled style p bytes middle w')
    (hmade : Made (· ∈ FileTree.wayTo w.cwd p) w middle) :
    Put style p bytes w w' := by
  have hway := h.passable
  have hallows := h.allows
  have hfind := h.find?_eq
  rw [hmade.cwd] at hway hallows hfind
  have hdirectory (l : Location) (hl : l ∈ FileTree.wayTo w.cwd p) :
      middle.tree.find? l = some .directory := by
    obtain ⟨front, hfront, rfl⟩ := FileTree.mem_way.1 hl
    exact hway front hfront
  -- A path with `..` in it could lead through its own place, but then there is
  -- a directory at that place and it is not opened as a file.
  have hapart : FileTree.locate w.cwd p ∉ FileTree.wayTo w.cwd p := by
    intro hl
    rw [hdirectory _ hl] at hallows
    exact hallows
  have hsame (l : Location) (hl : l ∉ FileTree.wayTo w.cwd p) :
      middle.tree.find? l = w.tree.find? l :=
    (hmade.grown l).resolve_right fun hnew => hl hnew.2.2
  refine ⟨h.cwd.trans hmade.cwd, h.umask.trans hmade.umask,
    h.faults.trans (congrArg List.tail hmade.faults), hsame _ hapart ▸ hallows,
    fun l hl => ?_, hapart, fun l => ?_⟩
  · rcases hmade.grown l with heq | ⟨hnone, _⟩
    · exact .inr (heq ▸ hdirectory l hl)
    · exact .inl hnone
  · rw [hfind, putAt]
    split
    · rename_i hl
      rw [hl, hsame _ hapart, hmade.umask]
    · split
      · rename_i hl
        exact hdirectory l hl
      · rename_i hl
        exact hsame l hl

theorem writeEntry_ok {style : WriteStyle} {p content : Text}
    (h : (writeEntry style p content : StateM Workspace _) w = (.ok (), w')) :
    Written style (p, content) w w' := by
  obtain ⟨middle, hmade, hwrite | ⟨_, _, _, hr, _⟩⟩ := writeEntry_run h
  · exact (writeFile_ok hwrite).put hmade
  · cases hr

/-- An entry that fails has made directories at most, or its write has broken off. -/
theorem writeEntry_error {style : WriteStyle} {p content : Text} {e : WriteError}
    (h : (writeEntry style p content : StateM Workspace _) w = (.error e, w')) :
    (Made (· ∈ FileTree.wayTo w.cwd p) w w' ∧
      (e.path = p ∨ Path.parent? p = some e.path)) ∨
    ∃ fault, e = ⟨p, fault.cause⟩ ∧ BrokenOff style (p, content) fault w w' := by
  obtain ⟨middle, hmade, hwrite | ⟨parent, cause, hparent, hr, rfl⟩⟩ :=
    writeEntry_run h
  · obtain ⟨hr, -⟩ | ⟨fault, hr, hfault, hfilled⟩ | ⟨cause, hr, rfl⟩ :=
      writeFile_run hwrite
    · cases hr
    · cases hr
      obtain ⟨hnext, hshort⟩ := Workspace.nextFault?_eq_some_iff.1 hfault
      exact .inr ⟨fault, rfl, hmade.faults ▸ hnext, hshort, hfilled.put hmade⟩
    · cases hr
      exact .inl ⟨hmade, .inl rfl⟩
  · cases hr
    exact .inl ⟨hmade, .inr hparent⟩

namespace Put

variable {style : WriteStyle} {p : Text} {bytes : List UInt8}

theorem find?_place (h : Put style p bytes w w') :
    w'.tree.find? (FileTree.locate w.cwd p) = some (FileTree.written w.umask
      style bytes (w.tree.find? (FileTree.locate w.cwd p))) := by
  rw [h.find?_eq, putAt, if_pos rfl]

theorem find?_way (h : Put style p bytes w w') {l : Location}
    (hl : l ∈ FileTree.wayTo w.cwd p) : w'.tree.find? l = some .directory := by
  have hne : l ≠ FileTree.locate w.cwd p := fun heq => h.apart (heq ▸ hl)
  rw [h.find?_eq, putAt, if_neg hne, if_pos hl]

theorem keeps_directory (h : Put style p bytes w w') {l : Location}
    (hl : w.tree.find? l = some .directory) :
    w'.tree.find? l = some .directory := by
  have hne : l ≠ FileTree.locate w.cwd p := by
    rintro rfl
    have hallows := h.allows
    rw [hl] at hallows
    exact hallows
  rw [h.find?_eq, putAt, if_neg hne]
  split
  · rfl
  · exact hl

theorem keeps_file (h : Put style p bytes w w') {l : Location} {mode : Nat}
    {old : List UInt8} (hl : w.tree.find? l = some (.file mode old)) :
    ∃ content, w'.tree.find? l = some (.file mode content) := by
  rw [h.find?_eq, putAt]
  split
  · rw [hl]
    exact ⟨_, rfl⟩
  · split
    · rename_i hway
      rcases h.clear l hway with hnone | hdir
      · rw [hl] at hnone
        cases hnone
      · rw [hl] at hdir
        cases hdir
    · exact ⟨old, hl⟩

end Put

/-! ## Writing many -/

/-- What is at a place once an entry has been written, given what was there. -/
def outcome (umask : Nat) (style : WriteStyle) (cwd l : Location)
    (before : Option Entry) (e : Text × Text) : Option Entry :=
  putAt umask style cwd l e.1 e.2.toBytes before

/-- Entries have been written: what is at any place has gone through the
outcomes of all of them. What was a file or a directory before is one still,
the entries' own places are files, and the ways to these are directories. -/
structure Stored (style : WriteStyle) (entries : List (Text × Text))
    (w w' : Workspace) : Prop where
  cwd : w'.cwd = w.cwd
  umask : w'.umask = w.umask
  find?_eq : ∀ l, w'.tree.find? l =
    entries.foldl (outcome w.umask style w.cwd l) (w.tree.find? l)
  keeps_directory : ∀ l, w.tree.find? l = some .directory →
    w'.tree.find? l = some .directory
  keeps_file : ∀ l mode old, w.tree.find? l = some (.file mode old) →
    ∃ content, w'.tree.find? l = some (.file mode content)
  places : ∀ e ∈ entries, ∃ mode content,
    w'.tree.find? (FileTree.locate w.cwd e.1) = some (.file mode content)
  ways : ∀ e ∈ entries, ∀ l ∈ FileTree.wayTo w.cwd e.1,
    w'.tree.find? l = some .directory

namespace Stored

variable {style : WriteStyle} {entries : List (Text × Text)}

theorem nil (style : WriteStyle) (w : Workspace) : Stored style [] w w where
  cwd := rfl
  umask := rfl
  find?_eq _ := rfl
  keeps_directory _ hl := hl
  keeps_file _ _ old hl := ⟨old, hl⟩
  places := nofun
  ways := nofun

theorem cons {e : Text × Text} {middle : Workspace} (hfirst : Written style e w middle)
    (hrest : Stored style entries middle w') :
    Stored style (e :: entries) w w' := by
  obtain ⟨hcwd, humask, hfind, hdirs, hfiles, hplaces, hways⟩ := hrest
  rw [hfirst.cwd] at hcwd hfind hplaces hways
  rw [hfirst.umask] at humask hfind
  refine ⟨hcwd, humask, fun l => ?_,
    fun l hl => hdirs l (hfirst.keeps_directory hl), fun l mode old hl => ?_, ?_, ?_⟩
  · rw [hfind, hfirst.find?_eq, List.foldl_cons, outcome]
  · obtain ⟨content, hmiddle⟩ := hfirst.keeps_file hl
    exact hfiles l mode content hmiddle
  · rintro f hf
    rcases List.mem_cons.1 hf with rfl | hf
    · exact ⟨_, hfiles _ _ _ hfirst.find?_place⟩
    · exact hplaces f hf
  · rintro f hf l hl
    rcases List.mem_cons.1 hf with rfl | hf
    · exact hdirs l (hfirst.find?_way hl)
    · exact hways f hf l hl

/-- What one entry needs as a directory is not where another one, or itself,
is. -/
theorem apart (h : Stored style entries w w') {e f : Text × Text}
    (he : e ∈ entries) (hf : f ∈ entries) :
    FileTree.locate w.cwd e.1 ∉ FileTree.wayTo w.cwd f.1 := by
  intro hl
  obtain ⟨mode, content, hfile⟩ := h.places e he
  rw [h.ways f hf _ hl] at hfile
  cases hfile

end Stored

/-- A run over entries writes them from the front. It either gets to the end or
stops at one of them, of which at most directories on its way are made, or whose
write breaks off. -/
theorem writeEntries_run {style : WriteStyle} {n : Nat}
    {entries : List (Text × Text)} {r : Except WriteError Nat}
    (h : (writeEntries style n entries : StateM Workspace _) w = (r, w')) :
    (r = .ok (n + entries.length) ∧ Stored style entries w w') ∨
    ∃ done e rest middle error, entries = done ++ e :: rest ∧ r = .error error ∧
      Stored style done w middle ∧
      (writeEntry style e.1 e.2 : StateM Workspace _) middle =
        (.error error, w') := by
  induction entries generalizing w n with
  | nil =>
      cases h
      exact .inl ⟨rfl, .nil style _⟩
  | cons e entries ih =>
      rw [writeEntries] at h
      obtain ⟨first, w₁, hentry, h⟩ := Workspace.bind_run h
      split at h
      · have hfirst := writeEntry_ok hentry
        obtain ⟨hr, hrest⟩ | ⟨done, f, rest, middle, error, heq, hr, hdone, herror⟩ :=
          ih h
        · refine .inl ⟨?_, .cons hfirst hrest⟩
          rw [hr, List.length_cons, Nat.add_right_comm, Nat.add_assoc]
        · refine .inr ⟨e :: done, f, rest, middle, error, ?_, hr,
            .cons hfirst hdone, herror⟩
          rw [heq, List.cons_append]
      · cases h
        exact .inr ⟨[], e, entries, w, _, rfl, rfl, .nil style w, hentry⟩

theorem writeEntries_ok {style : WriteStyle} {n m : Nat} {entries : List (Text × Text)}
    (h : (writeEntries style n entries : StateM Workspace _) w = (.ok m, w')) :
    m = n + entries.length ∧ Stored style entries w w' := by
  obtain ⟨hr, hstored⟩ | ⟨_, _, _, _, _, -, hr, -⟩ := writeEntries_run h
  · cases hr
    exact ⟨rfl, hstored⟩
  · cases hr

end

/-! ## What is at a place in the end -/

/-- The texts of the entries whose paths name a place, in order. -/
def textsAt (cwd l : Location) (entries : List (Text × Text)) : List Text :=
  (entries.filter fun e => FileTree.locate cwd e.1 = l).map Prod.snd

/-- The bytes of a file that texts have been written to one after the other. -/
def bytesAfterAll (policy : WritePolicy) (old : List UInt8) (texts : List Text) :
    List UInt8 :=
  texts.foldl (fun old text => FileTree.bytesAfter policy old text.toBytes) old

theorem bytesAfterAll_append (old : List UInt8) (texts : List Text) :
    bytesAfterAll .append old texts = old ++ Text.toBytes texts.flatten := by
  induction texts generalizing old with
  | nil => exact (List.append_nil old).symm
  | cons text texts ih =>
      rw [bytesAfterAll, List.foldl_cons, ← bytesAfterAll, ih,
        FileTree.bytesAfter, if_pos rfl, List.append_assoc, List.flatten_cons,
        Text.toBytes, Text.toBytes, Text.toBytes, List.flatMap_append]

theorem bytesAfterAll_concat {policy : WritePolicy} (h : policy ≠ .append)
    (old : List UInt8) (texts : List Text) (last : Text) :
    bytesAfterAll policy old (texts ++ [last]) = last.toBytes := by
  rw [bytesAfterAll, List.foldl_append, List.foldl_cons, List.foldl_nil,
    FileTree.bytesAfter, if_neg h]

theorem textsAt_cons_self {cwd : Location} (e : Text × Text)
    (entries : List (Text × Text)) :
    textsAt cwd (FileTree.locate cwd e.1) (e :: entries) =
      e.2 :: textsAt cwd (FileTree.locate cwd e.1) entries := by
  simp [textsAt]

theorem textsAt_cons_of_ne {cwd l : Location} {e : Text × Text}
    (hl : l ≠ FileTree.locate cwd e.1) (entries : List (Text × Text)) :
    textsAt cwd l (e :: entries) = textsAt cwd l entries := by
  simp [textsAt, hl.symm]

theorem textsAt_eq_nil_iff {cwd l : Location} {entries : List (Text × Text)} :
    textsAt cwd l entries = [] ↔ ∀ e ∈ entries, FileTree.locate cwd e.1 ≠ l := by
  simp [textsAt, List.filter_eq_nil_iff]

theorem foldl_outcome_of_file {umask : Nat} {style : WriteStyle} {cwd l : Location}
    {entries : List (Text × Text)}
    (hways : ∀ e ∈ entries, l ∉ FileTree.wayTo cwd e.1) (mode : Nat)
    (old : List UInt8) :
    entries.foldl (outcome umask style cwd l) (some (.file mode old)) =
      some (.file mode (bytesAfterAll style.policy old (textsAt cwd l entries))) := by
  induction entries generalizing old with
  | nil => rfl
  | cons e entries ih =>
      have hrest := ih fun f hf => hways f (List.mem_cons_of_mem _ hf)
      rw [List.foldl_cons, outcome, putAt]
      by_cases hl : l = FileTree.locate cwd e.1
      · subst hl
        rw [if_pos rfl, textsAt_cons_self]
        exact hrest _
      · rw [if_neg hl, if_neg (hways e (List.mem_cons_self ..)), hrest,
          textsAt_cons_of_ne hl]

/-- At a place that some entry names and none needs as a directory there is a
file in the end, whatever was there. -/
theorem foldl_outcome_named {umask : Nat} {style : WriteStyle} {cwd l : Location}
    {entries : List (Text × Text)}
    (hways : ∀ e ∈ entries, l ∉ FileTree.wayTo cwd e.1) (before : Option Entry)
    (hnamed : textsAt cwd l entries ≠ []) :
    entries.foldl (outcome umask style cwd l) before =
      some (.file (FileTree.modeAfter umask style before) (bytesAfterAll style.policy
        (FileTree.contentOf before) (textsAt cwd l entries))) := by
  induction entries generalizing before with
  | nil => exact absurd rfl hnamed
  | cons e entries ih =>
      have hrest : ∀ f ∈ entries, l ∉ FileTree.wayTo cwd f.1 :=
        fun f hf => hways f (List.mem_cons_of_mem _ hf)
      rw [List.foldl_cons, outcome, putAt]
      by_cases hl : l = FileTree.locate cwd e.1
      · subst hl
        rw [if_pos rfl, FileTree.written, foldl_outcome_of_file hrest,
          textsAt_cons_self]
        rfl
      · rw [textsAt_cons_of_ne hl] at hnamed ⊢
        rw [if_neg hl, if_neg (hways e (List.mem_cons_self ..))]
        exact ih hrest before hnamed

theorem foldl_outcome_elsewhere {umask : Nat} {style : WriteStyle} {cwd l : Location}
    {entries : List (Text × Text)}
    (hnamed : ∀ e ∈ entries, l ≠ FileTree.locate cwd e.1)
    (hways : ∀ e ∈ entries, l ∉ FileTree.wayTo cwd e.1)
    (before : Option Entry) :
    entries.foldl (outcome umask style cwd l) before = before := by
  induction entries with
  | nil => rfl
  | cons e entries ih =>
      rw [List.foldl_cons, outcome, putAt, if_neg (hnamed e (List.mem_cons_self ..)),
        if_neg (hways e (List.mem_cons_self ..))]
      exact ih (fun f hf => hnamed f (List.mem_cons_of_mem _ hf))
        (fun f hf => hways f (List.mem_cons_of_mem _ hf))

namespace Stored

variable {w w' : Workspace} {style : WriteStyle} {entries : List (Text × Text)}

/-- A destination holds the texts that were written there. -/
theorem find?_destination (h : Stored style entries w w') {e : Text × Text}
    (he : e ∈ entries) :
    w'.tree.find? (FileTree.locate w.cwd e.1) = some (.file
      (FileTree.modeAfter w.umask style (w.tree.find? (FileTree.locate w.cwd e.1)))
      (bytesAfterAll style.policy
        (FileTree.contentOf (w.tree.find? (FileTree.locate w.cwd e.1)))
        (textsAt w.cwd (FileTree.locate w.cwd e.1) entries))) := by
  rw [h.find?_eq]
  refine foldl_outcome_named (fun f hf => h.apart he hf) _ fun hnone => ?_
  exact textsAt_eq_nil_iff.1 hnone e he rfl

theorem find?_elsewhere (h : Stored style entries w w') {l : Location}
    (hnamed : ∀ e ∈ entries, l ≠ FileTree.locate w.cwd e.1)
    (hways : ∀ e ∈ entries, l ∉ FileTree.wayTo w.cwd e.1) :
    w'.tree.find? l = w.tree.find? l :=
  (h.find?_eq l).trans (foldl_outcome_elsewhere hnamed hways _)

end Stored

end Tangle
