import Tangle.Proofs.Destinations

/-!
# What runs leave alone

A run that appends, or makes new files only, takes nothing away that was there.
Directories are directories still, files keep their modes, and the bytes of a
file are still at its beginning. Making a directory leaves everything alone
(`FileTree.Grown.spared`), a write leaves alone what its policy says, be it of all
bytes or of those that arrive before it breaks off (`Put.spared`), and since a run
does nothing else it does not matter where it stops.

The one write that goes by no policy is that of the default configuration, which
truncates. It happens only where nothing is, because at a place where a path can
write over a file the path also leads to that file (`Filled.holds`).

From run to run the policy can change, even by what the runs themselves have
written, so a sequence of runs is judged by the policy of each of them at the
time (`Throughout`).
-/

namespace Tangle

open CommandLine (Invocation Extraction Request)

/-! ## What a policy leaves alone -/

/-- What a policy keeps of the bytes of a file. -/
def WritePolicy.KeepsBytes : WritePolicy → List UInt8 → List UInt8 → Prop
  | .append, old, new => old <+: new
  | .truncate, _, _ => True
  | .createNew, old, new => new = old

namespace WritePolicy.KeepsBytes

variable {policy : WritePolicy} {old between new : List UInt8}

theorem refl (policy : WritePolicy) (old : List UInt8) :
    policy.KeepsBytes old old := by
  cases policy with
  | append => exact List.prefix_rfl
  | truncate => trivial
  | createNew => rfl

theorem trans (h : policy.KeepsBytes old between)
    (h' : policy.KeepsBytes between new) : policy.KeepsBytes old new := by
  cases policy with
  | append => exact List.IsPrefix.trans h h'
  | truncate => trivial
  | createNew => exact Eq.trans h' h

end WritePolicy.KeepsBytes

/-- What a policy keeps of what is there: that it is a file or a directory, the
mode of a file, and what it keeps of the bytes. -/
inductive Entry.Kept (policy : WritePolicy) : Entry → Entry → Prop
  | directory : Kept policy .directory .directory
  | file (mode : Nat) {old new : List UInt8} (h : policy.KeepsBytes old new) :
      Kept policy (.file mode old) (.file mode new)

namespace Entry.Kept

variable {policy : WritePolicy} {before between after : Entry}

theorem refl (policy : WritePolicy) (entry : Entry) : entry.Kept policy entry := by
  cases entry with
  | directory => exact .directory
  | file mode content => exact .file mode (.refl policy content)

theorem trans (h : before.Kept policy between) (h' : between.Kept policy after) :
    before.Kept policy after := by
  cases h with
  | directory => exact h'
  | file mode h =>
      cases h' with
      | file _ h' => exact .file mode (h.trans h')

/-- What is only ever created is as it was. -/
theorem eq_of_createNew (h : before.Kept .createNew after) : after = before := by
  cases h with
  | directory => rfl
  | file mode h => exact congrArg _ h

end Entry.Kept

namespace FileTree

variable {t t' t'' : FileTree} {policy : WritePolicy}

/-- All that was in the first tree is in the second one, as far as a policy keeps
it. -/
def Spared (policy : WritePolicy) (t t' : FileTree) : Prop :=
  ∀ l before, t.find? l = some before →
    ∃ after, t'.find? l = some after ∧ before.Kept policy after

namespace Spared

theorem refl (policy : WritePolicy) (t : FileTree) : t.Spared policy t :=
  fun _ before hl => ⟨before, hl, .refl policy before⟩

theorem trans (h : t.Spared policy t') (h' : t'.Spared policy t'') :
    t.Spared policy t'' := by
  intro l before hl
  obtain ⟨between, hbetween, hkept⟩ := h l before hl
  obtain ⟨after, hafter, hkept'⟩ := h' l between hbetween
  exact ⟨after, hafter, hkept.trans hkept'⟩

/-- Where all is as it was, any policy has been kept to. -/
theorem of_createNew (h : t.Spared .createNew t') : t.Spared policy t' := by
  intro l before hl
  obtain ⟨after, hafter, hkept⟩ := h l before hl
  exact ⟨after, hafter, hkept.eq_of_createNew ▸ .refl policy before⟩

theorem find?_eq (h : t.Spared .createNew t') {l : Location} {entry : Entry}
    (hl : t.find? l = some entry) : t'.find? l = some entry := by
  obtain ⟨after, hafter, hkept⟩ := h l entry hl
  rw [hafter, hkept.eq_of_createNew]

theorem find?_directory (h : t.Spared policy t') {l : Location}
    (hl : t.find? l = some .directory) : t'.find? l = some .directory := by
  obtain ⟨after, hafter, hkept⟩ := h l _ hl
  cases hkept with
  | directory => exact hafter

theorem find?_file (h : t.Spared policy t') {l : Location} {mode : Nat}
    {old : List UInt8} (hl : t.find? l = some (.file mode old)) :
    ∃ new, t'.find? l = some (.file mode new) ∧ policy.KeepsBytes old new := by
  obtain ⟨after, hafter, hkept⟩ := h l _ hl
  cases hkept with
  | file _ hbytes => exact ⟨_, hafter, hbytes⟩

/-- What could be followed can be followed. -/
theorem follow (h : t.Spared policy t') {here l : Location} {parts : List Text}
    (hfollow : t.follow here parts = .ok l) : t'.follow here parts = .ok l := by
  refine follow_of_kept (fun _ => h.find?_directory) (fun l hl => ?_) hfollow
  obtain ⟨entry, hentry⟩ := Option.ne_none_iff_exists'.1 hl
  obtain ⟨after, hafter, -⟩ := h l entry hentry
  rw [hafter]
  nofun

end Spared

theorem Grown.spared {places : Location → Prop} (h : t.Grown t' places) :
    t.Spared policy t' :=
  fun _ before hl => ⟨before, h.find?_eq hl, .refl policy before⟩

/-! ## Writing where nothing is -/

/-- Nothing keeps a file from being written at the place that a path names, except
what is there. -/
def Writable (t : FileTree) (cwd : Location) (p : Text) : Prop :=
  ∃ dir name, t.lookupParent cwd p = .ok (dir, some name) ∧ isDots name = false ∧
    Path.endsInSlash p = false ∧ ¬ name.byteLength > maxName

namespace Writable

variable {cwd : Location} {p : Text}

theorem of_open {l : Location} {mode : Nat}
    (h : t.openFile cwd p policy mode = .ok (l, t')) : t.Writable cwd p := by
  obtain ⟨dir, name, hparent, hdots, hslash, hshort, -⟩ := openFile_follow h
  exact ⟨dir, name, hparent, hdots, hslash, hshort⟩

theorem open_eq (h : t.Writable cwd p) (policy : WritePolicy) (mode : Nat) :
    t.openFile cwd p policy mode =
      (t.openAt (locate cwd p) policy mode).map (locate cwd p, ·) := by
  obtain ⟨dir, name, hparent, hdots, hslash, hshort⟩ := h
  obtain ⟨-, hname, hfollow, -⟩ := lookupParent_follow hparent
  have hplace := locate_of_name cwd hname.symm hdots
  rw [← (follow_ok hfollow).1] at hplace
  unfold openFile
  rw [hparent]
  dsimp only
  rw [hdots, hslash, if_neg Bool.false_ne_true, if_neg Bool.false_ne_true,
    if_neg hshort, hplace]

theorem spared (h : t.Writable cwd p) (hspared : t.Spared policy t') :
    t'.Writable cwd p := by
  obtain ⟨dir, name, hparent, hdots, hslash, hshort⟩ := h
  obtain ⟨hcheck, hname, hfollow, hdir⟩ := lookupParent_follow hparent
  refine ⟨dir, name, ?_, hdots, hslash, hshort⟩
  unfold lookupParent
  rw [hcheck, hspared.follow hfollow]
  dsimp only
  rw [hspared.find?_directory hdir, ← hname]

/-- Such a path leads to what is at its place. -/
theorem lookup_eq (h : t.Writable cwd p) {entry : Entry}
    (hentry : t.find? (locate cwd p) = some entry) :
    t.lookup cwd p = .ok (locate cwd p, entry) := by
  obtain ⟨dir, name, hparent, hdots, hslash, hshort⟩ := h
  obtain ⟨hcheck, hname, hfollow, hdir⟩ := lookupParent_follow hparent
  -- the last part is a name in earnest, so the place is that name in `dir`
  have hplace := locate_of_name cwd hname.symm hdots
  rw [← (follow_ok hfollow).1] at hplace
  rw [hplace] at hentry ⊢
  obtain ⟨front, hparts⟩ := List.getLast?_eq_some_iff.1 hname.symm
  rw [hparts, List.dropLast_concat] at hfollow
  have hthere := follow_concat hfollow hdir hdots hshort hentry
  rw [← hparts] at hthere
  unfold lookup
  rw [hcheck, hthere]
  dsimp only
  rw [hentry]
  cases entry with
  | directory => rfl
  | file mode old => rw [hslash]; rfl

end Writable

end FileTree

/-! ## What is done to a workspace -/

section

variable {w w' : Workspace} {style : WriteStyle} {p : Text} {bytes : List UInt8}

theorem keepsBytes_bytesAfter {old : List UInt8} {mode : Nat}
    (h : FileTree.Allows style.policy (some (.file mode old))) (bytes : List UInt8) :
    style.policy.KeepsBytes old (FileTree.bytesAfter style.policy old bytes) := by
  obtain ⟨policy, mode⟩ := style
  cases policy with
  | append => exact List.prefix_append ..
  | truncate => trivial
  | createNew => exact absurd rfl h

theorem Put.spared (h : Put style p bytes w w') :
    w.tree.Spared style.policy w'.tree := by
  intro l before hl
  cases before with
  | directory => exact ⟨_, h.keeps_directory hl, .directory⟩
  | file mode old =>
      by_cases hplace : l = FileTree.locate w.cwd p
      · subst hplace
        have hallows := h.allows
        have hfile := h.find?_place
        rw [hl] at hallows hfile
        exact ⟨_, hfile, .file mode (keepsBytes_bytesAfter hallows bytes)⟩
      · have hway : l ∉ FileTree.wayTo w.cwd p := by
          intro hway
          rcases h.clear l hway with hnone | hdir
          · rw [hl] at hnone; cases hnone
          · rw [hl] at hdir; cases hdir
        refine ⟨_, ?_, .refl _ _⟩
        rw [h.find?_eq, putAt, if_neg hplace, if_neg hway, hl]

/-- A path under which a file has been opened leads to what was at its place. -/
theorem Filled.holds (h : Filled style p bytes w w') {entry : Entry}
    (hentry : w.tree.find? (FileTree.locate w.cwd p) = some entry) :
    w.tree.holds w.cwd p = true := by
  obtain ⟨_, _, hopen, -⟩ := h
  rw [FileTree.holds, (FileTree.Writable.of_open hopen).lookup_eq hentry]
  rfl

/-- What is put where a path leads to nothing takes nothing away. -/
theorem Filled.spared_of_not_holds (h : Filled style p bytes w w')
    (hnot : ¬ w.tree.holds w.cwd p = true) : w.tree.Spared .createNew w'.tree := by
  intro l before hl
  have hne : l ≠ FileTree.locate w.cwd p := by
    rintro rfl
    exact hnot (h.holds hl)
  exact ⟨before, by rw [h.find?_eq, if_neg hne, hl], .refl _ _⟩

theorem writeFile_spared {content : Text} {r : Except WriteError Unit}
    (h : (writeFile style p content : StateM Workspace _) w = (r, w')) :
    w.tree.Spared style.policy w'.tree := by
  obtain rfl | ⟨bytes, hfilled⟩ := writeFile_filled h
  · exact .refl _ _
  · exact (hfilled.put (.refl _ w)).spared

theorem writeEntry_spared {content : Text} {r : Except WriteError Unit}
    (h : (writeEntry style p content : StateM Workspace _) w = (r, w')) :
    w.tree.Spared style.policy w'.tree := by
  obtain ⟨middle, hmade, hwrite | ⟨_, _, _, _, rfl⟩⟩ := writeEntry_run h
  · exact hmade.grown.spared.trans (writeFile_spared hwrite)
  · exact hmade.grown.spared

theorem writeEntries_spared {n : Nat} {entries : List (Text × Text)}
    {r : Except WriteError Nat}
    (h : (writeEntries style n entries : StateM Workspace _) w = (r, w')) :
    w.tree.Spared style.policy w'.tree := by
  induction entries generalizing w n with
  | nil =>
      cases h
      exact .refl _ _
  | cons e entries ih =>
      rw [writeEntries] at h
      obtain ⟨first, middle, hentry, h⟩ := Workspace.bind_run h
      have hfirst := writeEntry_spared hentry
      split at h
      · exact hfirst.trans (ih h)
      -- a run that stops here has done what its last entry did
      · cases h
        exact hfirst

/-- How the default configuration is written. -/
def configStyle : WriteStyle := ⟨.truncate, ⟨plainMode, by decide⟩⟩

/-- The default configuration is held back, or it is written, with what comes of
that. -/
theorem createDefaultConfig_run {force : Bool} {r : Except InitError Bool}
    (h : (createDefaultConfig p force : StateM Workspace _) w = (r, w')) :
    (r = .ok false ∧ w.tree.holds w.cwd p = true ∧ force = false ∧ w' = w) ∨
    (¬ (w.tree.holds w.cwd p = true ∧ force = false) ∧
      ((∃ cause, r = .error ⟨p, cause⟩ ∧
          (writeFile configStyle p defaultConfigText : StateM Workspace _) w =
            (.error ⟨p, cause⟩, w')) ∨
        (r = .ok true ∧
          (writeFile configStyle p defaultConfigText : StateM Workspace _) w =
            (.ok (), w')))) := by
  rw [createDefaultConfig] at h
  obtain ⟨there, w₁, hthere, h⟩ := Workspace.bind_run h
  cases hthere
  split at h
  · next hheld =>
      cases h
      rw [Bool.and_eq_true, Bool.not_eq_true'] at hheld
      exact .inl ⟨rfl, hheld.1, hheld.2, rfl⟩
  · next hnot =>
      rw [Bool.and_eq_true, Bool.not_eq_true'] at hnot
      refine .inr ⟨hnot, ?_⟩
      obtain ⟨written, w₂, hwrite, h⟩ := Workspace.bind_run h
      have hfile : (writeFile configStyle p defaultConfigText : StateM Workspace _) w =
          (written.mapError fun cause => ⟨p, cause⟩, w₂) := by
        change (FileAccess.write p configStyle.policy configStyle.mode.bits
          defaultConfigText.toBytes : StateM Workspace _) w = _ at hwrite
        rw [writeFile]
        simp only [bind, StateT.bind, hwrite]
        cases written <;> rfl
      split at h
      · cases h
        exact .inr ⟨rfl, hfile⟩
      · next cause =>
          cases h
          exact .inl ⟨cause, rfl, hfile⟩

/-- Without force the default configuration is written where nothing is. -/
theorem createDefaultConfig_spared {r : Except InitError Bool}
    (h : (createDefaultConfig p false : StateM Workspace _) w = (r, w')) :
    w.tree.Spared .createNew w'.tree := by
  obtain ⟨-, -, -, rfl⟩ | ⟨hnot, hwritten⟩ := createDefaultConfig_run h
  · exact .refl _ _
  · rw [and_iff_left rfl] at hnot
    obtain ⟨r', hfile⟩ : ∃ r', (writeFile configStyle p defaultConfigText :
        StateM Workspace _) w = (r', w') := by
      obtain ⟨_, -, hfile⟩ | ⟨-, hfile⟩ := hwritten <;> exact ⟨_, hfile⟩
    obtain rfl | ⟨bytes, hfilled⟩ := writeFile_filled hfile
    · exact .refl _ _
    · exact hfilled.spared_of_not_holds hnot

end

/-! ## A run -/

section

variable {env : Environment} {inv : Invocation} {e : Extraction} {s : Settings}
  {documents : List Text} {w : Workspace} {policy : WritePolicy}

/-- The policy that a command writes under, if it is one that extracts and there
is a configuration. -/
def Workspace.policy? (w : Workspace) (env : Environment) (inv : Invocation) :
    Option WritePolicy :=
  inv.request.extraction?.bind fun e =>
    (w.configuration env inv).toOption.map fun c =>
      (mergeSettings c.1 e.flags).style.policy

theorem carryOut_spared_of_ready (hrequest : inv.request.extraction? = some e)
    (h : Ready env inv e w s documents) : w.tree.Spared s.style.policy
      ((carryOut env inv : StateM Workspace _) w).2.tree := by
  obtain ⟨output, hr⟩ | hr :=
    CommandLine.Request.extraction?_eq_some_iff.1 hrequest
  · rw [carryOut_of_single hr, runSingle_of_ready output h]
    cases OutputTarget.parse output with
    | stdout => exact .refl _ _
    | file path => exact writeFile_spared rfl
  · rw [carryOut_of_multi hr, runMulti_of_ready h]
    exact writeEntries_spared rfl

theorem policy?_of_ready (hrequest : inv.request.extraction? = some e)
    (h : Ready env inv e w s documents) :
    w.policy? env inv = some s.style.policy := by
  obtain ⟨c, source, hc, rfl⟩ := h.configured
  rw [Workspace.policy?, hrequest, hc]
  rfl

theorem runInit_snd (force : Bool) (w : Workspace) :
    ((runInit force : StateM Workspace _) w).2 =
      ((createDefaultConfig initPath force : StateM Workspace _) w).2 := by
  unfold runInit
  simp only [bind, StateT.bind]
  generalize (createDefaultConfig initPath force : StateM Workspace _) w = answer
  obtain ⟨r, w'⟩ := answer
  rcases r with error | _ | _ <;> rfl

theorem carryOut_spared (hforce : inv.request ≠ .init true)
    (hpolicy : ∀ p ∈ w.policy? env inv, p = policy ∨ p = .createNew) :
    w.tree.Spared policy ((carryOut env inv : StateM Workspace _) w).2.tree := by
  cases hrequest : inv.request.extraction? with
  | some e =>
      obtain ⟨s, documents, hready⟩ | ⟨failure, warnings, hfailed⟩ :=
        ready_or_untouched hrequest w
      · have hspared := carryOut_spared_of_ready hrequest hready
        rcases hpolicy _ (policy?_of_ready hrequest hready) with hp | hp
        · exact hp ▸ hspared
        · rw [hp] at hspared
          exact hspared.of_createNew
      · rw [hfailed]
        exact .refl _ _
  | none =>
      unfold carryOut
      cases hr : inv.request with
      | single e output => rw [hr] at hrequest; cases hrequest
      | multi e => rw [hr] at hrequest; cases hrequest
      | completions shell list => exact .refl _ _
      | init force =>
          cases force with
          | true => exact absurd hr hforce
          | false =>
              dsimp only
              rw [runInit_snd]
              exact (createDefaultConfig_spared rfl).of_createNew

end

/-! ## Runs one after the other -/

/-- A run of the program: with which arguments, with what around it, in which
directory and under which umask, and which faults its writes meet. -/
structure Call where
  env : Environment
  cwd : Location
  args : List Text
  umask : Nat := 0o022
  faults : List (Option Fault) := []

namespace Call

/-- What a run finds where this tree is. -/
def workspace (call : Call) (t : FileTree) : Workspace :=
  { tree := t, cwd := call.cwd, umask := call.umask, faults := call.faults }

/-- What a run leaves of a tree. -/
def leaves (call : Call) (t : FileTree) : FileTree :=
  ((run call.env call.args : StateM Workspace Report) (call.workspace t)).2.tree

/-- The policy that a run writes under, if it comes to that. -/
def policy? (call : Call) (t : FileTree) : Option WritePolicy :=
  match CommandLine.read call.args with
  | .error _ => none
  | .ok inv => (call.workspace t).policy? call.env inv

/-- Whether a run replaces the default configuration by force. -/
def forces (call : Call) : Bool :=
  match CommandLine.read call.args with
  | .error _ => false
  | .ok inv => inv.request = .init true

theorem leaves_spared {call : Call} {t : FileTree} {policy : WritePolicy}
    (hforce : call.forces = false)
    (hpolicy : ∀ p ∈ call.policy? t, p = policy ∨ p = .createNew) :
    t.Spared policy (call.leaves t) := by
  unfold leaves
  unfold forces at hforce
  unfold policy? at hpolicy
  cases hread : CommandLine.read call.args with
  | error stop =>
      rw [run, hread]
      exact .refl _ _
  | ok inv =>
      rw [hread] at hforce hpolicy
      rw [run_of_read hread]
      exact carryOut_spared (of_decide_eq_false hforce) hpolicy

end Call

/-- What runs leave of a tree, one after the other. -/
def afterAll : List Call → FileTree → FileTree
  | [], t => t
  | call :: rest, t => afterAll rest (call.leaves t)

/-- Every run finds a tree of which this holds, as the runs before it have left
it. -/
def Throughout (holds : Call → FileTree → Prop) : List Call → FileTree → Prop
  | [], _ => True
  | call :: rest, t => holds call t ∧ Throughout holds rest (call.leaves t)

instance Throughout.decidable (holds : Call → FileTree → Prop)
    [∀ call t, Decidable (holds call t)] :
    ∀ calls t, Decidable (Throughout holds calls t)
  | [], _ => .isTrue trivial
  | call :: rest, t =>
    haveI := Throughout.decidable holds rest (call.leaves t)
    inferInstanceAs (Decidable (holds call t ∧ Throughout holds rest (call.leaves t)))

theorem Throughout.and {holds more both : Call → FileTree → Prop}
    (himp : ∀ call t, holds call t → more call t → both call t)
    {calls : List Call} {t : FileTree} (h : Throughout holds calls t)
    (h' : Throughout more calls t) : Throughout both calls t := by
  induction calls generalizing t with
  | nil => trivial
  | cons call rest ih => exact ⟨himp call t h.1 h'.1, ih h.2 h'.2⟩

theorem spared_afterAll {policy : WritePolicy} {calls : List Call} {t : FileTree}
    (h : Throughout (fun call t => call.forces = false ∧
      ∀ p ∈ call.policy? t, p = policy ∨ p = .createNew) calls t) :
    t.Spared policy (afterAll calls t) := by
  induction calls generalizing t with
  | nil => exact .refl policy t
  | cons call rest ih => exact (Call.leaves_spared h.1.1 h.1.2).trans (ih h.2)

/-- Runs that append or make new files take nothing away, however many there are
and however each of them ends: directories stay directories and files stay files
of the same mode that begin with what was in them. Where all of them make new files
only, all that was there is as it was. -/
theorem runs_spare {calls : List Call} {t : FileTree}
    (h : Throughout (fun call t => call.forces = false ∧
      ∀ p ∈ call.policy? t, p = .append ∨ p = .createNew) calls t) :
    let t' := afterAll calls t
    (∀ l, t.find? l = some .directory → t'.find? l = some .directory) ∧
    (∀ l mode old, t.find? l = some (.file mode old) →
      ∃ new, t'.find? l = some (.file mode new) ∧ old <+: new) ∧
    (Throughout (fun call t => ∀ p ∈ call.policy? t, p = .createNew) calls t →
      ∀ l entry, t.find? l = some entry → t'.find? l = some entry) := by
  intro t'
  -- the runs are judged twice, the second time as runs that make new files only
  have hspared : t.Spared .append t' := spared_afterAll h
  refine ⟨fun l => hspared.find?_directory, fun l mode old => hspared.find?_file,
    fun hnew l entry => ?_⟩
  have hintact : t.Spared .createNew t' :=
    spared_afterAll (h.and (fun _ _ hcall hpolicy =>
      ⟨hcall.1, fun p hp => .inr (hpolicy p hp)⟩) hnew)
  exact hintact.find?_eq

/-- A command line in the root directory. -/
def callAtRoot (args : List String) : Call :=
  { env := { directory := ['/'] }, cwd := [], args := args.map String.toList }

/-- A file map of which the second file cannot be written, since a document is
where its directory would be; the same once more where only new files may be made,
with the first file there already; a text that is added to its own document, and a
second time in part, since the disk is full; and a default configuration that is made
and then found. The other document is as it was, and the first one still begins with
what was in it. -/
theorem runs_spare_halfWay :
    let document := sendingDocument [("d/x", "A"), ("b.md/y", "B")]
    let other := Text.toBytes "B\n".toList
    let t := (sendingWorkspace [("d/x", "A"), ("b.md/y", "B")]
      [("b.md".toList, other)]).tree
    let sending := callAtRoot ["multi", "a.md"]
    let careful := callAtRoot ["multi", "--write-mode", "create-new", "a.md"]
    let adding := callAtRoot ["single", "-o", "a.md", "a.md"]
    let full : Fault := ⟨1, .other "No space left on device (os error 28)"⟩
    let making := callAtRoot ["init"]
    let calls := [sending, careful, adding, { adding with faults := [some full] },
      making, making]
    (∃ new, (afterAll calls t).find? ["a.md".toList] = some (.file 0o644 new) ∧
      document.toBytes <+: new) ∧
      (afterAll [careful, careful, making] t).find? ["b.md".toList] =
        some (.file 0o644 other) ∧
      (sending.leaves t).find? ["d".toList, "x".toList] =
        some (.file 0o600 (Text.toBytes "A\n".toList)) := by
  intro document other t sending careful adding full making calls
  have hgentle : Throughout (fun call t => call.forces = false ∧
      ∀ p ∈ call.policy? t, p = .append ∨ p = .createNew) calls t := by decide +kernel
  have hcareful : Throughout (fun call t => call.forces = false ∧
      ∀ p ∈ call.policy? t, p = .append ∨ p = .createNew)
      [careful, careful, making] t := by decide +kernel
  exact ⟨(runs_spare hgentle).2.1 _ _ _ (by decide +kernel),
    (runs_spare hcareful).2.2 (by decide +kernel) _ _ (by decide +kernel),
    by decide +kernel⟩

end Tangle
