import Tangle.Proofs.Discovery
import Tangle.Proofs.Preservation

/-!
# The default configuration

Creating the default configuration either writes one file or leaves everything as it
is, and the text that it writes says what holds without a configuration
(`parse_defaultConfigText`). When the write breaks off the file has the beginning of
the text (`createDefaultConfig_failed`).

A directory is looked into before those that it lies in, and `.mdextract.toml` before
anything else in it. So what a run has created in a directory is found from there,
whatever else there may be. It is created under its name alone, however, and looked
for under the path of the directory with the name behind it. If this is longer than
the system takes, the file is there and is not found (`loaded_of_created`).
-/

namespace Tangle

open CommandLine (Invocation)

/-! ## The text -/

namespace Text

theorem readChar_ascii {c : Char} (h : c.toNat < 0x80) (bytes : List UInt8) :
    readChar c.val.toUInt8 bytes = (some c, bytes) := by
  have hnat : c.val.toUInt8.toNat = c.toNat := by
    rw [UInt32.toNat_toUInt8]
    exact Nat.mod_eq_of_lt (h.trans (by decide))
  have hbyte : c.val.toUInt8 < 0x80 := by
    rw [UInt8.lt_iff_toNat_lt, hnat]
    exact h
  rw [readChar, if_pos hbyte, hnat, Char.ofNat_toNat]

theorem chars_toBytes {text : Text} (h : ∀ c ∈ text, c.toNat < 0x80) :
    chars text.toBytes = text.map some := by
  induction text with
  | nil => rw [toBytes, List.flatMap_nil, chars, List.map_nil]
  | cons c text ih =>
      obtain ⟨hc, hrest⟩ := List.forall_mem_cons.1 h
      have hone : c.utf8Size = 1 := Char.utf8Size_eq_one_iff.2 (Nat.le_of_lt_succ hc)
      rw [toBytes, List.flatMap_cons, ← toBytes, String.utf8EncodeChar_eq_singleton hone,
        List.singleton_append, chars, readChar_ascii hc, ih hrest, List.map_cons]

/-- A text of ASCII characters is read back from its bytes. -/
theorem ofBytes?_toBytes {text : Text} (h : ∀ c ∈ text, c.toNat < 0x80) :
    ofBytes? text.toBytes = some text := by
  rw [ofBytes?, chars_toBytes h]
  clear h
  induction text with
  | nil => rfl
  | cons c text ih => rw [List.map_cons, List.mapM_cons, ih]; rfl

end Text

theorem lines_cons (line : Text) (lines : List String) :
    (String.ofList line :: lines).flatMap (fun line => line.toList ++ ['\n']) =
      line ++ '\n' :: lines.flatMap fun line => line.toList ++ ['\n'] := by
  rw [List.flatMap_cons, String.toList_ofList, List.append_assoc]
  rfl

theorem ascii_defaultConfigText : ∀ c ∈ defaultConfigText, c.toNat < 0x80 := by
  have hall : defaultConfigText.all (fun c => c.toNat < 0x80) = true := by
    -- the lines are spelled out first, which is much less work than to decode them
    rw [defaultConfigText, defaultConfigLines]
    repeat rw [lines_cons]
    decide +kernel
  exact fun c hc => of_decide_eq_true (List.all_eq_true.1 hall c hc)

/-- The default configuration says what holds without one. -/
theorem parse_defaultConfigText : Config.parse defaultConfigText = .ok {} := by
  rw [defaultConfigText, defaultConfigLines]
  repeat rw [lines_cons]
  decide +kernel

/-! ## A name in a directory -/

namespace FileTree

variable {t : FileTree} {cwd l : Location} {p dir name : Text} {entry : Entry}

/-- Where a directory is, there its entries are, if the system takes their paths. -/
theorem lookup_join (hnul : '\x00' ∉ dir)
    (hfollow : t.follow (origin cwd dir) (Path.parts dir) = .ok l)
    (hdir : t.find? l = some .directory) (hname : IsName name)
    (hlength : (Path.join dir name).byteLength ≤ maxPath)
    (hentry : t.find? (l ++ [name]) = some entry) :
    t.lookup cwd (Path.join dir name) = .ok (l ++ [name], entry) := by
  have hparts := Path.parts_join dir hname.ne_nil hname.noSlash
  have htaken : checkPath (Path.join dir name) = .ok () := by
    refine checkPath_eq_ok_iff.2 ⟨hname.noNul_join hnul, fun hnil => ?_, hlength⟩
    rw [hnil] at hparts
    exact List.append_ne_nil_of_right_ne_nil _ (List.cons_ne_nil _ _) hparts.symm
  have hend : t.follow (origin cwd (Path.join dir name))
      (Path.parts (Path.join dir name)) = .ok (l ++ [name]) := by
    rw [hparts, origin, Path.isAbsolute_join dir hname.noSlash]
    exact follow_concat hfollow hdir hname.noDots hname.short hentry
  unfold lookup
  rw [htaken, hend]
  dsimp only
  rw [hentry, Path.endsInSlash_join dir hname.ne_nil hname.noSlash]
  cases entry <;> rfl

theorem byteLength_le_of_holdsFile (h : t.holdsFile cwd p = true) :
    p.byteLength ≤ maxPath := by
  unfold holdsFile at h
  split at h
  · next hlookup => exact (checkPath_eq_ok_iff.1 (lookup_follow hlookup).1).2.2
  · cases h

end FileTree

/-! ## Creating it -/

section

variable {w w' : Workspace} {p : Text} {force : Bool} {r : Except InitError Bool}

theorem createDefaultConfig_true
    (h : (createDefaultConfig p force : StateM Workspace _) w = (.ok true, w')) :
    (writeFile configStyle p defaultConfigText : StateM Workspace _) w = (.ok (), w') := by
  obtain ⟨hr, -⟩ | ⟨-, ⟨_, hr, -⟩ | ⟨-, hfile⟩⟩ := createDefaultConfig_run h
  · cases hr
  · cases hr
  · exact hfile

/-- Writing the default configuration replaces what was in the file. The file keeps its
mode if it was there before, and nothing else changes. -/
theorem Filled.find?_config {bytes : List UInt8} (h : Filled configStyle p bytes w w')
    (l : Location) : w'.tree.find? l = if l = FileTree.locate w.cwd p
      then some (.file (FileTree.modeAfter w.umask configStyle (w.tree.find? l)) bytes)
      else w.tree.find? l := h.find?_eq l

/-- What has been created is the default configuration. -/
theorem createDefaultConfig_created
    (h : (createDefaultConfig p force : StateM Workspace _) w = (.ok true, w')) :
    w'.cwd = w.cwd ∧ w'.tree.read w.cwd p = .ok defaultConfigText.toBytes ∧
      ∀ l, w'.tree.find? l = if l = FileTree.locate w.cwd p
        then some (.file (FileTree.modeAfter w.umask configStyle (w.tree.find? l))
          defaultConfigText.toBytes)
        else w.tree.find? l := by
  have hfile := createDefaultConfig_true h
  have hfilled := writeFile_ok hfile
  have hplace := hfilled.find?_config (FileTree.locate w.cwd p)
  rw [if_pos rfl] at hplace
  refine ⟨hfilled.cwd, ?_, hfilled.find?_config⟩
  obtain ⟨_, _, hopen, -⟩ := hfilled
  have hlookup :=
    ((FileTree.Writable.of_open hopen).spared (writeFile_spared hfile)).lookup_eq hplace
  rw [FileTree.read, hlookup]

/-- A failure names the path. It leaves everything as it was, unless the write broke off
after the file had been opened. -/
theorem createDefaultConfig_failed {error : InitError}
    (h : (createDefaultConfig p force : StateM Workspace _) w = (.error error, w')) :
    error.path = p ∧ (w' = w ∨
      ∃ fault, w.faults.head? = some (some fault) ∧
        fault.arrived < defaultConfigText.toBytes.length ∧ error.cause = fault.cause ∧
        Filled configStyle p (defaultConfigText.toBytes.take fault.arrived) w w') := by
  obtain ⟨hr, -⟩ | ⟨-, ⟨cause, hr, hfile⟩ | ⟨hr, -⟩⟩ := createDefaultConfig_run h
  · cases hr
  · cases hr
    refine ⟨rfl, ?_⟩
    obtain ⟨hr, -⟩ | ⟨fault, hr, hfault, hfilled⟩ | ⟨_, -, hsame⟩ := writeFile_run hfile
    · cases hr
    · cases hr
      obtain ⟨hnext, hshort⟩ := Workspace.nextFault?_eq_some_iff.1 hfault
      exact .inr ⟨fault, hnext, hshort, rfl, hfilled⟩
    · exact .inl hsame
  · cases hr

theorem createDefaultConfig_held_back
    (h : (createDefaultConfig p force : StateM Workspace _) w = (.ok false, w')) :
    w' = w := by
  obtain ⟨-, -, -, hsame⟩ | ⟨-, ⟨_, hr, -⟩ | ⟨hr, -⟩⟩ := createDefaultConfig_run h
  · exact hsame
  · cases hr
  · cases hr

theorem createDefaultConfig_false_iff
    (h : (createDefaultConfig p force : StateM Workspace _) w = (r, w')) :
    r = .ok false ↔ w.tree.holds w.cwd p = true ∧ force = false := by
  obtain ⟨rfl, hheld, hforce, -⟩ | ⟨hnot, ⟨_, rfl, -⟩ | ⟨rfl, -⟩⟩ :=
    createDefaultConfig_run h
  · exact ⟨fun _ => ⟨hheld, hforce⟩, fun _ => rfl⟩
  · exact ⟨nofun, fun hheld => absurd hheld hnot⟩
  · exact ⟨nofun, fun hheld => absurd hheld hnot⟩

theorem createDefaultConfig_true_iff
    (h : (createDefaultConfig p force : StateM Workspace _) w = (r, w')) :
    r = .ok true ↔ ¬ (w.tree.holds w.cwd p = true ∧ force = false) ∧
      ((writeFile configStyle p defaultConfigText : StateM Workspace _) w).1 =
        .ok () := by
  obtain ⟨rfl, hheld, hforce, -⟩ | ⟨hnot, ⟨_, rfl, hfile⟩ | ⟨rfl, hfile⟩⟩ :=
    createDefaultConfig_run h
  · exact ⟨nofun, fun hcreated => absurd ⟨hheld, hforce⟩ hcreated.1⟩
  · rw [hfile]
    exact ⟨nofun, fun hcreated => nomatch hcreated.2⟩
  · rw [hfile]
    exact ⟨fun _ => ⟨hnot, rfl⟩, fun _ => rfl⟩

end

/-! ## Finding it -/

namespace Workspace

variable {w : Workspace} {start p : Text}

theorem discovered_eq (start : Text) :
    w.discovered start = w.search (Path.ancestors maxDiscoveryDepth start) := by
  rw [discovered, discoverConfig, discoverWithin_run]

/-- The file of the directory itself is found before anything else. -/
theorem discovered_here (h : w.tree.holdsFile w.cwd (Path.join start initPath) = true) :
    w.discovered start = some (Path.join start initPath) := by
  have hfirst : w.configFile? start = some (Path.join start initPath) :=
    List.find?_cons_of_pos h
  rw [discovered_eq, maxDiscoveryDepth, Path.ancestors, search, hfirst]

theorem holdsFile_of_search {dirs : List Text} (h : w.search dirs = some p) :
    w.tree.holdsFile w.cwd p = true := by
  induction dirs with
  | nil => cases h
  | cons dir outer ih =>
      rw [search] at h
      split at h
      · next hfound =>
          cases h
          exact List.find?_some hfound
      · split at h
        · cases h
        · exact ih h

/-- A configuration has been read from a file that is there. -/
theorem holdsFile_of_loaded {c : Config}
    (h : w.loaded none false start = .ok (c, some p)) :
    w.tree.holdsFile w.cwd p = true := by
  rw [loaded_found] at h
  split at h
  · cases h
  · next q hq =>
      rw [discovered_eq] at hq
      cases hread : w.configAt q with
      | error cause => rw [hread] at h; cases h
      | ok found =>
          rw [hread] at h
          cases h
          exact holdsFile_of_search hq

theorem configAt_of_read {bytes : List UInt8} {document : Text} {c : Config}
    (hread : w.tree.read w.cwd p = .ok bytes) (htext : Text.ofBytes? bytes = some document)
    (hparse : Config.parse document = .ok c) : w.configAt p = .ok c := by
  rw [configAt, hread]
  dsimp only
  rw [htext]
  dsimp only
  rw [Config.ofText, hparse]
  rfl

theorem configAt_default
    (h : w.tree.read w.cwd p = .ok defaultConfigText.toBytes) :
    w.configAt p = .ok {} :=
  configAt_of_read h (Text.ofBytes?_toBytes ascii_defaultConfigText)
    parse_defaultConfigText

/-- A path that can be followed to the current directory. The empty path is one. -/
structure LeadsHere (w : Workspace) (start : Text) : Prop where
  noNul : '\x00' ∉ start
  follow : w.tree.follow (FileTree.origin w.cwd start) (Path.parts start) = .ok w.cwd

end Workspace

/-- What is printed when the default configuration has been created. -/
def createdLine : Text :=
  s!"Created default configuration file: {String.ofList initPath}\n".toList

/-- A command line that asks for the default configuration has been carried out, and it
is reported that it has been created. -/
inductive InitRun (w w' : Workspace) : Prop
  | intro (env : Environment) (args : List Text) (inv : Invocation) (force : Bool)
      (report : Report)
      (read : CommandLine.read args = .ok inv)
      (request : inv.request = .init force)
      (runs : (run env args : StateM Workspace _) w = (report, w'))
      (created : report.stdout = createdLine)

section

variable {w w' : Workspace} {start : Text}

theorem InitRun.of_stdout {env : Environment} {args : List Text} {inv : Invocation}
    {force : Bool} (hread : CommandLine.read args = .ok inv)
    (hrequest : inv.request = .init force)
    (hcreated : ((run env args : StateM Workspace Report) w).1.stdout = createdLine) :
    InitRun w ((run env args : StateM Workspace Report) w).2 :=
  .intro env args inv force _ hread hrequest rfl hcreated

theorem InitRun.created (h : InitRun w w') :
    ∃ force, (createDefaultConfig initPath force : StateM Workspace _) w =
      (.ok true, w') := by
  obtain ⟨env, args, inv, force, report, hread, hrequest, hruns, hcreated⟩ := h
  refine ⟨force, ?_⟩
  rw [run_of_read hread, carryOut, hrequest] at hruns
  dsimp only at hruns
  rw [runInit] at hruns
  simp only [bind, StateT.bind] at hruns
  generalize (createDefaultConfig initPath force : StateM Workspace _) w = answer at hruns ⊢
  obtain ⟨r, middle⟩ := answer
  rcases r with error | _ | _
  · cases hruns
    cases hcreated
  · cases hruns
    cases hcreated
  · cases hruns
    rfl

theorem isName_initPath : FileTree.IsName initPath := isName_of_mem (by decide)

theorem origin_initPath (cwd : Location) : FileTree.origin cwd initPath = cwd :=
  if_neg (by decide)

theorem locate_initPath (cwd : Location) :
    FileTree.locate cwd initPath = cwd ++ [initPath] := by
  have hparts : Path.parts initPath = [initPath] := by decide
  rw [FileTree.locate, hparts, origin_initPath]
  rfl

/-- What has been created in the current directory is loaded from there, as far as the
system takes its path. -/
theorem loaded_of_created {force : Bool}
    (h : (createDefaultConfig initPath force : StateM Workspace _) w = (.ok true, w'))
    (hstart : w.LeadsHere start) :
    w'.loaded none false start = .ok ({}, some (Path.join start initPath)) ↔
      (Path.join start initPath).byteLength ≤ FileTree.maxPath := by
  constructor
  · intro hloaded
    exact FileTree.byteLength_le_of_holdsFile (Workspace.holdsFile_of_loaded hloaded)
  · intro hlength
    have hfile := createDefaultConfig_true h
    have hwritten := (writeFile_ok hfile).put (.refl _ w)
    have hspared := writeFile_spared hfile
    have hplace := hwritten.find?_place
    have hdir : w'.tree.find? w.cwd = some .directory := by
      refine hwritten.find?_way (FileTree.mem_way.2 ⟨[], List.nil_prefix, ?_⟩)
      exact origin_initPath w.cwd
    rw [locate_initPath] at hplace
    have hlookup := FileTree.lookup_join hstart.noNul (hspared.follow hstart.follow) hdir
      isName_initPath hlength hplace
    rw [← hwritten.cwd] at hlookup
    have hread : w'.tree.read w'.cwd (Path.join start initPath) =
        .ok defaultConfigText.toBytes := by
      rw [FileTree.read, hlookup]
      rfl
    have hthere : w'.tree.holdsFile w'.cwd (Path.join start initPath) = true := by
      rw [FileTree.holdsFile, hlookup]
      rfl
    rw [Workspace.loaded_found, Workspace.discovered_here hthere]
    dsimp only
    rw [Workspace.configAt_default hread]
    rfl

/-- Creating the default configuration is safe, and a run that does it takes effect.

What the path leads to is left alone without force, and then the answer says so.
Otherwise the file is created if it can be written at all. When that fails nothing has
changed, unless the file was opened and a fault came before the last of its bytes: then
the file is there, with the bytes that arrived. What has been created is the default
configuration, in a file that has the mode it had if there was one; every other place
is as it was.

After a run that reports the file, the configuration that is loaded from the directory
of the run is the default one, and it comes from this file, whatever else is there or
around it. One exception is a path that is too long for the system when the name of the
file is put behind that of its directory. Another would be a file that may be written
and not read, but nothing here refuses access. -/
theorem createDefaultConfig_takesEffect :
    (∀ (w w' : Workspace) (p : Text) (force : Bool) (r : Except InitError Bool),
      (createDefaultConfig p force : StateM Workspace _) w = (r, w') →
      let place := FileTree.locate w.cwd p
      (r = .ok false ↔ w.tree.holds w.cwd p = true ∧ force = false) ∧
      (r = .ok true ↔ ¬ (w.tree.holds w.cwd p = true ∧ force = false) ∧
        ((writeFile configStyle p defaultConfigText : StateM Workspace _) w).1 =
          .ok ()) ∧
      (r = .ok false → w' = w) ∧
      (∀ error, r = .error error → error.path = p ∧ (w' = w ∨
        ∃ fault, w.faults.head? = some (some fault) ∧
          fault.arrived < defaultConfigText.toBytes.length ∧
          error.cause = fault.cause ∧
          w'.tree.find? place = some (.file
            (FileTree.modeAfter w.umask configStyle (w.tree.find? place))
            (defaultConfigText.toBytes.take fault.arrived)) ∧
          ∀ l, l ≠ place → w'.tree.find? l = w.tree.find? l)) ∧
      (r = .ok true → w'.cwd = w.cwd ∧
        w'.tree.read w'.cwd p = .ok defaultConfigText.toBytes ∧
        (∀ mode old, w.tree.find? place = some (.file mode old) →
          w'.tree.find? place = some (.file mode defaultConfigText.toBytes)) ∧
        ∀ l, l ≠ place → w'.tree.find? l = w.tree.find? l)) ∧
    ∀ (w w' : Workspace) (start : Text), InitRun w w' → w.LeadsHere start →
      (w'.loaded none false start = .ok ({}, some (Path.join start initPath)) ↔
        (Path.join start initPath).byteLength ≤ FileTree.maxPath) := by
  refine ⟨fun w w' p force r h => ⟨createDefaultConfig_false_iff h,
    createDefaultConfig_true_iff h, ?_, ?_, ?_⟩, fun w w' start hrun hstart => ?_⟩
  · rintro rfl
    exact createDefaultConfig_held_back h
  · rintro error rfl
    obtain ⟨hpath, hsame | ⟨fault, hnext, hshort, hcause, hfilled⟩⟩ :=
      createDefaultConfig_failed h
    · exact ⟨hpath, .inl hsame⟩
    · refine ⟨hpath, .inr ⟨fault, hnext, hshort, hcause, ?_, fun l hl => ?_⟩⟩
      · rw [hfilled.find?_config, if_pos rfl]
      · rw [hfilled.find?_config, if_neg hl]
  · rintro rfl
    obtain ⟨hcwd, hread, hfind⟩ := createDefaultConfig_created h
    refine ⟨hcwd, hcwd.symm ▸ hread, fun mode old hold => ?_, fun l hl => ?_⟩
    · rw [hfind, if_pos rfl, hold]
      rfl
    · rw [hfind, if_neg hl]
  · obtain ⟨force, hcreated⟩ := hrun.created
    exact loaded_of_created hcreated hstart

end

/-- A directory with a boundary in it and a file of the other name, below another
configuration: what was no text is replaced by force, and then it is loaded. -/
theorem createDefaultConfig_takesEffect_competitors :
    let text : String → Text := String.toList
    let other := Entry.file 0o644 (text "[output]\nwrite-mode = 'truncate'\n").toBytes
    let tree : FileTree := ⟨[([initPath], other), ([text "d"], .directory),
      ([text "d", boundaryName], .directory), ([text "d", text "mdextract.toml"], other),
      ([text "d", initPath], .file 0o600 [0xff])]⟩
    let w : Workspace := { tree, cwd := [text "d"] }
    let w' := ((run { directory := text "/d" } [text "init", text "--force"] :
      StateM Workspace Report) w).2
    InitRun w w' ∧ w.LeadsHere (text "/d") ∧
      w'.loaded none false (text "/d") = .ok ({}, some (text "/d/.mdextract.toml")) ∧
      w'.tree.find? [text "d", initPath] =
        some (.file 0o600 defaultConfigText.toBytes) := by
  intro text other tree w w'
  have hread : CommandLine.read [text "init", text "--force"] =
      .ok { request := .init true } := by rfl
  have hrun : InitRun w w' := .of_stdout hread rfl (by decide +kernel)
  have hstart : w.LeadsHere (text "/d") := ⟨by decide +kernel, by decide +kernel⟩
  have hloaded := (createDefaultConfig_takesEffect.2 w w' (text "/d") hrun hstart).2
    (by decide +kernel)
  have hcreated : (createDefaultConfig initPath true : StateM Workspace _) w =
      (.ok true, w') := rfl
  have heffect := (createDefaultConfig_takesEffect.1 w w' initPath true _ hcreated).2.2.2.2 rfl
  exact ⟨hrun, hstart, hloaded, heffect.2.2.1 0o600 [0xff] (by decide +kernel)⟩

/-- A directory whose path is taken, while that of a file in it is too long: the file
is created and is not what is loaded. -/
theorem createDefaultConfig_tooDeep :
    let names : Location :=
      List.replicate 15 (List.replicate 255 'd') ++ [List.replicate 239 'd']
    let start : Text := names.flatMap ('/' :: ·)
    let tree : FileTree := ⟨names.inits.tail.map fun l => (l, .directory)⟩
    let w : Workspace := { tree, cwd := names }
    let w' := ((run { directory := start } ["init".toList] :
      StateM Workspace Report) w).2
    InitRun w w' ∧ w.LeadsHere start ∧
      w'.loaded none false start ≠ .ok ({}, some (Path.join start initPath)) := by
  intro names start tree w w'
  have hread : CommandLine.read ["init".toList] = .ok { request := .init false } := by
    rfl
  have hrun : InitRun w w' := .of_stdout hread rfl (by decide +kernel)
  have hstart : w.LeadsHere start := ⟨by decide +kernel, by decide +kernel⟩
  refine ⟨hrun, hstart, fun hloaded => ?_⟩
  obtain ⟨force, hcreated⟩ := hrun.created
  exact absurd ((loaded_of_created hcreated hstart).1 hloaded) (by decide +kernel)

end Tangle
