import Tangle.Proofs.DirectPaths
import Tangle.Proofs.Reading

/-!
# The one source of a configuration

A configuration comes from one place: the file that is named, or the file that is
nearest on the way up, or nowhere, and then it is the default. Looking for a file is
a search of a list of directories (`discoverWithin_run`), and the search finds what
it is meant to find in the first directory that has a configuration file, unless an
earlier one is the last that may be looked at (`search_eq_some_iff`).

A directory is asked for a name under its own path with the name behind it. So it
takes two things for an entry to be seen: it is there, straight down from the root,
and the system takes the path (`FileTree.holdsFile_direct_iff`). Where the path of
the start leaves room for the longest of the names, all paths are taken
(`taken_of_room`) and what there is, is seen. Where it does not, a file can be there
and not be found (`discovered_pathTooLong`).
-/

namespace Tangle

namespace FileTree

/-- A file with the name is in the directory, and its path is one that the system
takes. -/
def SeesFile (t : FileTree) (dir name : Text) : Prop :=
  Taken (Path.join dir name) ∧
    ∃ mode content, t.Lies (Path.parts (Path.join dir name)) (.file mode content)

/-- An entry with the name is in the directory, and its path is one that the system
takes. -/
def Sees (t : FileTree) (dir name : Text) : Prop :=
  Taken (Path.join dir name) ∧ ∃ entry, t.Lies (Path.parts (Path.join dir name)) entry

/-- The configuration file of a directory. One whose name begins with a dot is
preferred. A directory with such a name is none. -/
inductive ConfigFile (t : FileTree) (dir : Text) : Text → Prop
  | hidden (h : t.SeesFile dir ".mdextract.toml".toList) :
      ConfigFile t dir (Path.join dir ".mdextract.toml".toList)
  | plain (h : t.SeesFile dir "mdextract.toml".toList)
      (hhidden : ¬ t.SeesFile dir ".mdextract.toml".toList) :
      ConfigFile t dir (Path.join dir "mdextract.toml".toList)

/-- A directory with an entry of any kind named `.git` in it, outside of which no
configuration is looked for. -/
def Bounds (t : FileTree) (dir : Text) : Prop := t.Sees dir ".git".toList

end FileTree

theorem isName_of_mem {name : Text} (h : name ∈ boundaryName :: configNames) :
    FileTree.IsName name := by
  have hname : ∀ name ∈ boundaryName :: configNames, name ≠ [] ∧ '/' ∉ name ∧
      '\x00' ∉ name ∧ FileTree.isDots name = false ∧
      ¬ name.byteLength > FileTree.maxName := by decide
  obtain ⟨hne, hslash, hnul, hdots, hshort⟩ := hname name h
  exact ⟨hne, hslash, hnul, hdots, hshort⟩

/-- With room for the longest of the names behind the path of the start, there is room
for every name behind the path of every directory above it. -/
theorem taken_of_room {start dir name : Text} {n : Nat} (hnul : '\x00' ∉ start)
    (hroom : start.byteLength + 16 ≤ FileTree.maxPath)
    (hnames : ∀ part ∈ Path.parts dir, part.byteLength ≤ FileTree.maxName)
    (hdir : dir ∈ Path.ancestors n start) (hname : name ∈ boundaryName :: configNames) :
    FileTree.Taken (Path.join dir name) := by
  have hlongest : ∀ name ∈ boundaryName :: configNames, name.byteLength ≤ 15 := by decide
  have hlength := hlongest name hname
  obtain ⟨rest, rfl⟩ := Path.prefix_of_mem_ancestors hdir
  rw [Text.byteLength_append] at hroom
  refine (isName_of_mem hname).taken_join (fun h => hnul (List.mem_append_left _ h)) ?_
    hnames
  omega

namespace Workspace

variable {w : Workspace}

/-! ## Looking into one directory -/

/-- The configuration file that is found in a directory. -/
def configFile? (w : Workspace) (dir : Text) : Option Text :=
  (configNames.map (Path.join dir)).find? (w.tree.holdsFile w.cwd)

theorem holdsFile_join_iff (w : Workspace) {dir name : Text} (hdir : Path.IsDirect dir)
    (hname : name ∈ boundaryName :: configNames) :
    w.tree.holdsFile w.cwd (Path.join dir name) = true ↔ w.tree.SeesFile dir name := by
  obtain ⟨hne, hslash, -, hdots, -⟩ := isName_of_mem hname
  exact FileTree.holdsFile_direct_iff w.cwd (Path.isDirect_join hdir hne hslash hdots)
    (Path.endsInSlash_join dir hne hslash)

theorem configFile?_eq_some_iff {dir p : Text} (hdir : Path.IsDirect dir) :
    w.configFile? dir = some p ↔ w.tree.ConfigFile dir p := by
  have hhidden : _ ↔ w.tree.SeesFile dir ".mdextract.toml".toList :=
    holdsFile_join_iff w hdir (by decide)
  have hplain : _ ↔ w.tree.SeesFile dir "mdextract.toml".toList :=
    holdsFile_join_iff w hdir (by decide)
  rw [configFile?, configNames, List.map_cons, List.map_singleton]
  cases hh : w.tree.holdsFile w.cwd (Path.join dir ".mdextract.toml".toList) with
  | true =>
      have hfile := hhidden.1 hh
      rw [List.find?_cons_of_pos hh]
      constructor
      · rintro ⟨⟩
        exact .hidden hfile
      · rintro (- | ⟨-, hnone⟩)
        · rfl
        · exact absurd hfile hnone
  | false =>
      have hnone : ¬ w.tree.SeesFile dir ".mdextract.toml".toList :=
        fun h => by rw [hhidden.2 h] at hh; cases hh
      rw [List.find?_cons_of_neg (Bool.eq_false_iff.1 hh)]
      cases hp : w.tree.holdsFile w.cwd (Path.join dir "mdextract.toml".toList) with
      | true =>
          rw [List.find?_cons_of_pos hp]
          constructor
          · rintro ⟨⟩
            exact .plain (hplain.1 hp) hnone
          · rintro (h | -)
            · exact absurd h hnone
            · rfl
      | false =>
          rw [List.find?_cons_of_neg (Bool.eq_false_iff.1 hp), List.find?_nil]
          refine ⟨nofun, ?_⟩
          rintro (h | ⟨h, -⟩)
          · exact absurd h hnone
          · rw [hplain.2 h] at hp
            cases hp

theorem holds_boundary_iff {dir : Text} (hdir : Path.IsDirect dir) :
    w.tree.holds w.cwd (Path.join dir boundaryName) = true ↔ w.tree.Bounds dir := by
  obtain ⟨hne, hslash, -, hdots, -⟩ := isName_of_mem (List.mem_cons_self ..)
  exact FileTree.holds_direct_iff w.cwd (Path.isDirect_join hdir hne hslash hdots)
    (Path.endsInSlash_join dir hne hslash)

/-! ## Looking into one directory after the other -/

/-- The first configuration file in a list of directories. A boundary ends the
search, but only behind the directory that it is in. -/
def search (w : Workspace) : List Text → Option Text
  | [] => none
  | dir :: outer =>
    match w.configFile? dir with
    | some found => some found
    | none =>
      if w.tree.holds w.cwd (Path.join dir boundaryName) then none else w.search outer

theorem firstFile_run (paths : List Text) :
    (firstFile paths : StateM Workspace _) w =
      (paths.find? (w.tree.holdsFile w.cwd), w) := by
  induction paths with
  | nil => rfl
  | cons p rest ih =>
      rw [firstFile]
      show (FileAccess.holdsFile p >>= _ : StateM Workspace _) w = _
      simp only [bind, StateT.bind, FileAccess.holdsFile]
      cases hp : w.tree.holdsFile w.cwd p with
      | true =>
          rw [List.find?_cons_of_pos hp]
          rfl
      | false =>
          rw [List.find?_cons_of_neg (Bool.eq_false_iff.1 hp)]
          exact ih

theorem discoverWithin_run (levels : Nat) (dir : Text) :
    (discoverWithin levels dir : StateM Workspace _) w =
      (w.search (Path.ancestors levels dir), w) := by
  induction levels generalizing dir with
  | zero => rfl
  | succ n ih =>
      rw [discoverWithin, Path.ancestors, search, configFile?]
      simp only [bind, StateT.bind, firstFile_run]
      cases (configNames.map (Path.join dir)).find? (w.tree.holdsFile w.cwd) with
      | some found => rfl
      | none =>
          simp only [StateT.bind, FileAccess.holds]
          cases w.tree.holds w.cwd (Path.join dir boundaryName) with
          | true => rfl
          | false =>
              cases Path.parent? dir with
              | none => rfl
              | some outer => exact ih outer

/-- The nearest configuration file is that of some directory in the list, none that
comes before has one, and none that comes before is a boundary. -/
theorem search_eq_some_iff {dirs : List Text} (hdirs : ∀ dir ∈ dirs, Path.IsDirect dir)
    {p : Text} :
    w.search dirs = some p ↔
      ∃ (k : Nat) (dir : Text), dirs[k]? = some dir ∧ w.tree.ConfigFile dir p ∧
        ∀ j < k, ∀ near, dirs[j]? = some near →
          (∀ q, ¬ w.tree.ConfigFile near q) ∧ ¬ w.tree.Bounds near := by
  induction dirs with
  | nil => exact ⟨nofun, nofun⟩
  | cons first outer ih =>
      have hfirst := hdirs first (List.mem_cons_self ..)
      have ih := ih fun dir hdir => hdirs dir (List.mem_cons_of_mem _ hdir)
      rw [search]
      cases hconfig : w.configFile? first with
      | some found =>
          have hfound := (configFile?_eq_some_iff hfirst).1 hconfig
          constructor
          · rintro ⟨⟩
            exact ⟨0, first, rfl, hfound, nofun⟩
          · rintro ⟨k, dir, hdir, hp, hnone⟩
            cases k with
            | zero =>
                cases hdir
                rw [← (configFile?_eq_some_iff hfirst).2 hp]
                exact hconfig.symm
            | succ k => exact absurd hfound ((hnone 0 (Nat.succ_pos k) first rfl).1 found)
      | none =>
          have hnothing (q : Text) : ¬ w.tree.ConfigFile first q := fun hq => by
            rw [(configFile?_eq_some_iff hfirst).2 hq] at hconfig
            cases hconfig
          dsimp only
          split
          · rename_i hboundary
            refine ⟨nofun, ?_⟩
            rintro ⟨k, dir, hdir, hp, hnone⟩
            cases k with
            | zero =>
                cases hdir
                exact absurd hp (hnothing p)
            | succ k =>
                exact absurd ((holds_boundary_iff hfirst).1 hboundary)
                  (hnone 0 (Nat.succ_pos k) first rfl).2
          · rename_i hboundary
            rw [holds_boundary_iff hfirst] at hboundary
            rw [ih]
            constructor
            · rintro ⟨k, dir, hdir, hp, hnone⟩
              refine ⟨k + 1, dir, hdir, hp, fun j hj near hnear => ?_⟩
              cases j with
              | zero =>
                  cases hnear
                  exact ⟨hnothing, hboundary⟩
              | succ j => exact hnone j (Nat.lt_of_succ_lt_succ hj) near hnear
            · rintro ⟨k, dir, hdir, hp, hnone⟩
              cases k with
              | zero =>
                  cases hdir
                  exact absurd hp (hnothing p)
              | succ k =>
                  exact ⟨k, dir, hdir, hp, fun j hj near hnear =>
                    hnone (j + 1) (Nat.succ_lt_succ hj) near hnear⟩

/-! ## What is loaded -/

/-- The configuration in the file under a path. -/
def configAt (w : Workspace) (path : Text) : Except ConfigError Config :=
  match w.tree.read w.cwd path with
  | .error cause => .error (.unreadable path cause)
  | .ok bytes =>
    match Text.ofBytes? bytes with
    | none => .error (.unreadable path .notUtf8)
    | some document => Config.ofText path document

/-- The configuration file that is found from a directory. -/
def discovered (w : Workspace) (start : Text) : Option Text :=
  ((discoverConfig start : StateM Workspace _) w).1

/-- The configuration that is loaded and its file if it has one. -/
def loaded (w : Workspace) (explicit : Option Text) (ignore : Bool) (start : Text) :
    Except ConfigError (Config × Option Text) :=
  ((loadConfig explicit ignore start : StateM Workspace _) w).1

theorem readConfig_run (path : Text) :
    (readConfig path : StateM Workspace _) w = (w.configAt path, w) := by
  unfold readConfig configAt
  simp only [bind, StateT.bind, FileAccess.read]
  cases w.tree.read w.cwd path with
  | error cause => rfl
  | ok bytes =>
      dsimp only
      cases Text.ofBytes? bytes <;> rfl

theorem loaded_explicit (path : Text) (ignore : Bool) (start : Text) :
    w.loaded (some path) ignore start = (w.configAt path).map (·, some path) := by
  show ((readConfig path >>= fun r => pure (r.map (·, some path)) :
    StateM Workspace _) w).1 = _
  simp only [bind, StateT.bind, readConfig_run]
  rfl

theorem loaded_found (start : Text) : w.loaded none false start =
    match w.discovered start with
    | none => .ok ({}, none)
    | some p => (w.configAt p).map (·, some p) := by
  rw [loaded, discovered, loadConfig, discoverConfig]
  simp only [Bool.false_eq_true, if_false, bind, StateT.bind, discoverWithin_run]
  cases w.search (Path.ancestors maxDiscoveryDepth start) with
  | none => rfl
  | some p =>
      simp only [StateT.bind, readConfig_run]
      rfl

/-- The file that is reported is the one that the configuration is in. Without a
file it is the default. -/
theorem source_of_loaded {explicit source : Option Text} {ignore : Bool} {start : Text}
    {c : Config} (h : w.loaded explicit ignore start = .ok (c, source)) :
    (source = none → c = {}) ∧ ∀ p, source = some p → w.configAt p = .ok c := by
  have hfile {p : Text} (h : (w.configAt p).map (·, some p) = .ok (c, source)) :
      (source = none → c = {}) ∧ ∀ p, source = some p → w.configAt p = .ok c := by
    cases hc : w.configAt p with
    | error cause => rw [hc] at h; cases h
    | ok found =>
        rw [hc] at h
        cases h
        exact ⟨nofun, by rintro _ ⟨⟩; exact hc⟩
  have hdefault (h : (.ok ({}, none) : Except ConfigError _) = .ok (c, source)) :
      (source = none → c = {}) ∧ ∀ p, source = some p → w.configAt p = .ok c := by
    cases h
    exact ⟨fun _ => rfl, nofun⟩
  cases explicit with
  | some p => exact hfile (loaded_explicit p ignore start ▸ h)
  | none =>
      cases ignore with
      | true => exact hdefault h
      | false =>
          rw [loaded_found] at h
          split at h
          · exact hdefault h
          · exact hfile h

end Workspace

/-- A configuration comes from one place.

The directories that are looked into are the one at the start and those that it lies
in, a hundred at most: `k` levels up the last `k` parts of the path are left off. A
directory is seen to have a file, or an entry that bounds the search, if that is there
and the path of the directory with the name behind it is one that the system takes;
these paths are all taken if that of the start is at most 4079 bytes long. The file
that is discovered is the configuration file of one of the directories, before which
there is neither another configuration file nor a boundary. A file that is named is
read without looking for another one, and if none is wanted then nothing is looked at,
wherever files are held. A file that has been found has to be in order: there is
nothing to fall back on. The file that is reported is the one that was read. -/
theorem loadConfig_one_source {start : Text} (hstart : Path.IsDirect start)
    (w : Workspace) :
    let names := Path.parts start
    let dirs := Path.ancestors 100 start
    dirs.length = min 100 (names.length + 1) ∧
    (∀ (k : Nat) (dir : Text), dirs[k]? = some dir →
      let l := names.take (names.length - k)
      Path.parts dir = l ∧
      (∀ name ∈ configNames, w.tree.SeesFile dir name ↔
        FileTree.Taken (Path.join dir name) ∧
          ∃ mode content, w.tree.Lies (l ++ [name]) (.file mode content)) ∧
      (w.tree.Bounds dir ↔ FileTree.Taken (Path.join dir boundaryName) ∧
        ∃ entry, w.tree.Lies (l ++ [boundaryName]) entry)) ∧
    ('\x00' ∉ start → start.byteLength ≤ 4079 →
      (∀ name ∈ names, name.byteLength ≤ FileTree.maxName) →
      ∀ dir ∈ dirs, ∀ name ∈ boundaryName :: configNames,
        FileTree.Taken (Path.join dir name)) ∧
    (∀ p, w.discovered start = some p ↔
      ∃ (k : Nat) (dir : Text), dirs[k]? = some dir ∧ w.tree.ConfigFile dir p ∧
        ∀ j < k, ∀ near, dirs[j]? = some near →
          (∀ q, ¬ w.tree.ConfigFile near q) ∧ ¬ w.tree.Bounds near) ∧
    (∀ path ignore,
      w.loaded (some path) ignore start = (w.configAt path).map (·, some path)) ∧
    w.loaded none true start = .ok ({}, none) ∧
    (w.loaded none false start = match w.discovered start with
      | none => .ok ({}, none)
      | some p => (w.configAt p).map (·, some p)) ∧
    (∀ explicit ignore c source, w.loaded explicit ignore start = .ok (c, source) →
      (source = none → c = {}) ∧ ∀ p, source = some p → w.configAt p = .ok c) ∧
    ∀ (m : Type → Type) [Monad m] [FileAccess m],
      (∀ path ignore, (loadConfig (some path) ignore start : m _) =
        readConfig path >>= fun r => pure (r.map (·, some path))) ∧
      (loadConfig none true start : m _) = pure (.ok ({}, none)) := by
  intro names dirs
  have hdirs {k : Nat} {dir : Text} (hdir : dirs[k]? = some dir) :=
    hstart.parts_of_getElem? hdir
  refine ⟨hstart.length_ancestors 100, fun k dir hdir => ?_,
    fun hnul hlength hnames dir hdir name hname => ?_, fun p => ?_,
    fun path ignore => Workspace.loaded_explicit path ignore start, rfl,
    Workspace.loaded_found start, fun _ _ _ _ => Workspace.source_of_loaded,
    fun m _ _ => ⟨fun _ _ => rfl, rfl⟩⟩
  · obtain ⟨-, hparts⟩ := hdirs hdir
    have hjoined {name : Text} (hname : name ∈ boundaryName :: configNames) :
        Path.parts (Path.join dir name) = names.take (names.length - k) ++ [name] := by
      obtain ⟨hne, hslash, -⟩ := isName_of_mem hname
      rw [Path.parts_join dir hne hslash, hparts]
    refine ⟨hparts, fun name hname => ?_, ?_⟩
    · rw [FileTree.SeesFile, hjoined (List.mem_cons_of_mem _ hname)]
    · rw [← hjoined (List.mem_cons_self ..)]
      exact Iff.rfl
  · obtain ⟨k, hk⟩ := List.mem_iff_getElem?.1 hdir
    refine taken_of_room hnul ?_ (fun part hpart => hnames part ?_) hdir hname
    · exact Nat.add_le_add_right hlength 16
    · rw [(hdirs hk).2] at hpart
      exact List.mem_of_mem_take hpart
  · have hall : ∀ dir ∈ dirs, Path.IsDirect dir := fun dir hdir => by
      obtain ⟨k, hk⟩ := List.mem_iff_getElem?.1 hdir
      exact (hdirs hk).1
    rw [← Workspace.search_eq_some_iff hall, Workspace.discovered, discoverConfig,
      Workspace.discoverWithin_run]
    rfl

/-- A configuration file beside a boundary, found from a directory below it, with a
directory of the name that would be preferred. It is not in order, and the one above
the boundary does not stand in for it. -/
theorem loadConfig_one_source_besideBoundary :
    let named := fun name : String => name.toList
    let w : Workspace := { tree := ⟨[
      ([named ".mdextract.toml"], .file 0o644 []),
      ([named "p"], .directory),
      ([named "p", named ".git"], .file 0o644 []),
      ([named "p", named ".mdextract.toml"], .directory),
      ([named "p", named "mdextract.toml"], .file 0o644 (Text.toBytes (named "a=1"))),
      ([named "p", named "docs"], .directory)]⟩ }
    let start := named "/p//docs/"
    let found := named "/p/mdextract.toml"
    Path.IsDirect start ∧ w.discovered start = some found ∧
      w.loaded none false start =
        .error (.invalid found (.wrong (.unknownField ['a'] Config.sections))) ∧
      w.loaded none true start = .ok ({}, none) := by
  intro named w start found
  have hstart : Path.IsDirect start := ⟨by decide, by decide⟩
  obtain ⟨-, -, -, -, -, hignored, hfound, -⟩ := loadConfig_one_source hstart w
  have hdiscovered : w.discovered start = some found := by decide +kernel
  refine ⟨hstart, hdiscovered, ?_, hignored⟩
  rw [hfound, hdiscovered]
  decide +kernel

/-- A directory with a configuration file and a boundary in it. The path of the file is
one byte too long, so the file is not found, while that of the boundary is taken. -/
theorem discovered_pathTooLong :
    let names : Location :=
      List.replicate 15 (List.replicate 255 'd') ++ [List.replicate 239 'd']
    let start : Text := names.flatMap ('/' :: ·)
    let file := names ++ [".mdextract.toml".toList]
    let w : Workspace := { tree := ⟨(file, .file 0o644 []) ::
      (names ++ [boundaryName], .directory) ::
      names.inits.tail.map fun l => (l, .directory)⟩ }
    Path.IsDirect start ∧ Path.parts start = names ∧
      w.tree.Lies file (.file 0o644 []) ∧ w.discovered start = none ∧
      w.loaded none false start = .ok ({}, none) := by
  intro names start file w
  have hdiscovered : w.discovered start = none := by decide +kernel
  refine ⟨⟨by decide +kernel, by decide +kernel⟩, by decide +kernel,
    ⟨by decide +kernel, by decide +kernel⟩, hdiscovered, ?_⟩
  rw [Workspace.loaded_found, hdiscovered]

end Tangle
