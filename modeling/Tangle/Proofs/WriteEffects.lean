import Tangle.Proofs.EntryWriting

/-!
# What writing a file map does to the tree

Entries whose paths name distinct places do not get into each other's way: what
an entry finds at its place is what was there before all of them. A directory
could have been made there for an earlier entry, but then the entry fails, and a
file could only have been put there by an entry of the same place.

So the effect of a run is told place by place, for the tree before and the tree
after it (`Effect`). A run that fails has the effect of the entries in front of
the one that failed, and it may have made directories on the way to that one. If
the failure is that of a write that had begun, it has the effect of this write as
well, with the bytes that arrived. All of it comes by induction from what a single
entry does (`Effect.cons`).
-/

namespace Tangle

/-- What writing makes of the place that an entry names. A file that is there may
be appended to or replaced, as the policy says, and keeps its mode. -/
inductive FileChange (umask : Nat) (style : WriteStyle) (content : List UInt8) :
    Option Entry → Entry → Prop
  | created : FileChange umask style content none
      (.file (FileTree.grantedMode umask style.mode.bits) content)
  | appended (mode : Nat) (old : List UInt8) (h : style.policy = .append) :
      FileChange umask style content (some (.file mode old))
        (.file mode (old ++ content))
  | replaced (mode : Nat) (old : List UInt8) (h : style.policy = .truncate) :
      FileChange umask style content (some (.file mode old)) (.file mode content)

theorem FileTree.Allows.fileChange {style : WriteStyle} {before : Option Entry}
    (h : Allows style.policy before) (umask : Nat) (content : List UInt8) :
    FileChange umask style content before (written umask style content before) := by
  obtain ⟨policy, mode⟩ := style
  cases before with
  | none => cases policy <;> exact .created
  | some entry =>
      cases entry with
      | directory => exact h.elim
      | file m old =>
          cases policy with
          | append => exact .appended m old rfl
          | truncate => exact .replaced m old rfl
          | createNew => exact absurd rfl h

/-- What there is to put under each path for these entries. -/
def inBytes (entries : List (Text × Text)) : List (Text × List UInt8) :=
  entries.map fun e => (e.1, e.2.toBytes)

/-- The bytes that are `done` have been put under their paths, and all else is as it
was but for new directories on the way to entries that have been `tried`. -/
structure Effect (style : WriteStyle) (done : List (Text × List UInt8))
    (tried : List (Text × Text)) (w w' : Workspace) : Prop where
  cwd : w'.cwd = w.cwd
  written : ∀ e ∈ done, ∃ after,
    FileChange w.umask style e.2 (w.tree.find? (FileTree.locate w.cwd e.1)) after ∧
      w'.tree.find? (FileTree.locate w.cwd e.1) = some after
  elsewhere : ∀ l, (∀ e ∈ done, l ≠ FileTree.locate w.cwd e.1) →
    w'.tree.find? l = w.tree.find? l ∨
      (w.tree.find? l = none ∧ w'.tree.find? l = some .directory ∧
        ∃ e ∈ tried, l ∈ FileTree.wayTo w.cwd e.1)

/-- The paths of entries name distinct places. -/
def DistinctPlaces (cwd : Location) (entries : List (Text × Text)) : Prop :=
  entries.Pairwise fun e f => FileTree.locate cwd e.1 ≠ FileTree.locate cwd f.1

instance (cwd : Location) (entries : List (Text × Text)) :
    Decidable (DistinctPlaces cwd entries) :=
  inferInstanceAs (Decidable (entries.Pairwise _))

variable {style : WriteStyle} {done : List (Text × List UInt8)}
  {tried : List (Text × Text)} {e : Text × Text} {bytes : List UInt8}
  {w middle w' : Workspace}

/-- Away from its place an entry makes directories on its way. -/
theorem Put.elsewhere (h : Put style e.1 bytes w w') {l : Location}
    (hl : l ≠ FileTree.locate w.cwd e.1) :
    w'.tree.find? l = w.tree.find? l ∨
      (w.tree.find? l = none ∧ w'.tree.find? l = some .directory ∧
        l ∈ FileTree.wayTo w.cwd e.1) := by
  by_cases hway : l ∈ FileTree.wayTo w.cwd e.1
  · have hdirectory := h.find?_way hway
    rcases h.clear l hway with hnone | hthere
    · exact .inr ⟨hnone, hdirectory, hway⟩
    · exact .inl (hdirectory.trans hthere.symm)
  · left
    rw [h.find?_eq, putAt, if_neg hl, if_neg hway]

namespace Effect

theorem nil (style : WriteStyle) (w : Workspace) : Effect style [] [] w w :=
  ⟨rfl, nofun, fun _ _ => .inl rfl⟩

/-- Directories that have been made for an entry. -/
theorem of_made (style : WriteStyle)
    (hmade : Made (· ∈ FileTree.wayTo w.cwd e.1) w w') :
    Effect style [] [e] w w' :=
  ⟨hmade.cwd, nofun, fun l _ => (hmade.grown l).imp_right
    fun ⟨hnone, hdirectory, hway⟩ =>
      ⟨hnone, hdirectory, e, List.mem_singleton_self e, hway⟩⟩

theorem cons (hfirst : Put style e.1 bytes w middle)
    (hrest : Effect style done tried middle w')
    (hplace : ∀ f ∈ done, FileTree.locate w.cwd e.1 ≠ FileTree.locate w.cwd f.1) :
    Effect style ((e.1, bytes) :: done) (e :: tried) w w' := by
  obtain ⟨hcwd, hwritten, helsewhere⟩ := hrest
  rw [hfirst.cwd] at hcwd hwritten helsewhere
  rw [hfirst.umask] at hwritten
  refine ⟨hcwd, fun f hf => ?_, fun l hl => ?_⟩
  · rcases List.mem_cons.1 hf with rfl | hf
    · -- nothing behind the entry touches the file that it has left
      refine ⟨_, hfirst.allows.fileChange w.umask bytes, ?_⟩
      rcases helsewhere _ hplace with heq | ⟨hnone, -⟩
      · rw [heq, hfirst.find?_place]
      · rw [hfirst.find?_place] at hnone
        cases hnone
    · obtain ⟨after, hchange, hafter⟩ := hwritten f hf
      refine ⟨after, ?_, hafter⟩
      -- a directory that was made at the place would have kept the file away
      rcases hfirst.elsewhere (hplace f hf).symm with heq | ⟨-, hdirectory, -⟩
      · rwa [heq] at hchange
      · rw [hdirectory] at hchange
        cases hchange
  · have hfound := hfirst.elsewhere (hl _ (List.mem_cons_self ..))
    rcases helsewhere l fun f hf => hl f (List.mem_cons_of_mem _ hf) with
      heq | ⟨hnone, hdirectory, f, hf, hway⟩
    · rw [heq]
      exact hfound.imp_right fun ⟨hnone, hdirectory, hway⟩ =>
        ⟨hnone, hdirectory, e, List.mem_cons_self .., hway⟩
    · refine .inr ⟨?_, hdirectory, f, List.mem_cons_of_mem _ hf, hway⟩
      rcases hfound with heq | ⟨hnone', -⟩
      · rwa [heq] at hnone
      · exact hnone'

end Effect

/-! ## The run -/

theorem writeEntries_cons (h : (writeEntry style e.1 e.2 : StateM Workspace _) w =
      (.ok (), middle)) (n : Nat) (entries : List (Text × Text)) :
    (writeEntries style n (e :: entries) : StateM Workspace _) w =
      (writeEntries style (n + 1) entries : StateM Workspace _) middle := by
  rw [writeEntries]
  simp only [bind, StateT.bind, h]

/-- What a run has done that ended with the failure of an entry behind those that are
`done`: it has made directories for the entry at most, or it has put a part of it into
its file. -/
inductive Stopped (style : WriteStyle) (done : List (Text × Text)) (e : Text × Text)
    (error : WriteError) (w middle w' : Workspace) : Prop
  | unopened (path : error.path = e.1 ∨ Path.parent? e.1 = some error.path)
      (made : Made (· ∈ FileTree.wayTo w.cwd e.1) middle w')
      (effect : Effect style (inBytes done) (done ++ [e]) w w')
  | brokenOff (fault : Fault) (met : w.faults[done.length]? = some (some fault))
      (short : fault.arrived < e.2.toBytes.length)
      (reported : error = ⟨e.1, fault.cause⟩)
      (effect : Effect style
        (inBytes done ++ [(e.1, e.2.toBytes.take fault.arrived)]) (done ++ [e]) w w')

theorem Stopped.of_writeEntry {error : WriteError}
    (h : (writeEntry style e.1 e.2 : StateM Workspace _) w = (.error error, w')) :
    Stopped style [] e error w w w' := by
  obtain ⟨hmade, hpath⟩ | ⟨fault, hreported, hbroken⟩ := writeEntry_error h
  · exact .unopened hpath hmade (.of_made style hmade)
  · refine .brokenOff fault ?_ hbroken.short hreported
      (.cons hbroken.put (.nil style w') nofun)
    rw [List.length_nil, ← List.head?_eq_getElem?]
    exact hbroken.next

theorem Stopped.cons {first : Workspace} {entries : List (Text × Text)}
    {f : Text × Text} {error : WriteError} (hfirst : Written style e w first)
    (hrest : Stopped style entries f error first middle w')
    (hplace : ∀ g ∈ entries ++ [f],
      FileTree.locate w.cwd e.1 ≠ FileTree.locate w.cwd g.1) :
    Stopped style (e :: entries) f error w middle w' := by
  have hdone : ∀ g ∈ inBytes entries,
      FileTree.locate w.cwd e.1 ≠ FileTree.locate w.cwd g.1 := by
    intro g hg
    obtain ⟨entry, hentry, rfl⟩ := List.mem_map.1 hg
    exact hplace entry (List.mem_append_left _ hentry)
  cases hrest with
  | unopened hpath hmade heffect =>
      exact .unopened hpath (hfirst.cwd ▸ hmade) (heffect.cons hfirst hdone)
  | brokenOff fault hmet hshort hreported heffect =>
      refine .brokenOff fault ?_ hshort hreported (heffect.cons hfirst fun g hg => ?_)
      · rwa [hfirst.faults, List.getElem?_tail] at hmet
      · rcases List.mem_append.1 hg with hg | hg
        · exact hdone g hg
        · rw [List.mem_singleton.1 hg]
          exact hplace f (by simp)

/-- A run writes all entries, or it writes those in front of one that fails and ends
with the failure of that one. -/
theorem writeEntries_effect {entries : List (Text × Text)} {n : Nat}
    {r : Except WriteError Nat} (hplaces : DistinctPlaces w.cwd entries)
    (h : (writeEntries style n entries : StateM Workspace _) w = (r, w')) :
    (r = .ok (n + entries.length) ∧ Effect style (inBytes entries) entries w w') ∨
    ∃ done e rest middle error, entries = done ++ e :: rest ∧ r = .error error ∧
      (writeEntries style n done : StateM Workspace _) w =
        (.ok (n + done.length), middle) ∧
      Effect style (inBytes done) done w middle ∧
      (writeEntry style e.1 e.2 : StateM Workspace _) middle = (.error error, w') ∧
      Stopped style done e error w middle w' := by
  induction entries generalizing w n with
  | nil =>
      cases h
      exact .inl ⟨rfl, .nil style _⟩
  | cons e entries ih =>
      obtain ⟨hplace, hrest⟩ := List.pairwise_cons.1 hplaces
      have hbytes {front : List (Text × Text)} (hfront : ∀ f ∈ front, f ∈ entries) :
          ∀ f ∈ inBytes front,
            FileTree.locate w.cwd e.1 ≠ FileTree.locate w.cwd f.1 := by
        intro f hf
        obtain ⟨g, hg, rfl⟩ := List.mem_map.1 hf
        exact hplace g (hfront g hg)
      rw [writeEntries] at h
      obtain ⟨first, w₁, hentry, h⟩ := Workspace.bind_run h
      split at h
      · have hfirst := writeEntry_ok hentry
        rw [← hfirst.cwd] at hrest
        obtain ⟨hr, heffect⟩ | ⟨done, f, rest, middle, error, rfl, hr, hdone, heffect,
            herror, hstopped⟩ := ih hrest h
        · refine .inl ⟨?_, heffect.cons hfirst (hbytes fun _ => id)⟩
          rw [hr, List.length_cons, Nat.add_right_comm, Nat.add_assoc]
        · refine .inr ⟨e :: done, f, rest, middle, error, rfl, hr, ?_,
            heffect.cons hfirst (hbytes fun g => List.mem_append_left _), herror,
            hstopped.cons hfirst fun g hg => hplace g ?_⟩
          · rw [writeEntries_cons hentry, hdone, List.length_cons, Nat.add_right_comm,
              Nat.add_assoc]
          · rw [List.append_cons]
            exact List.mem_append_left _ hg
      · cases h
        exact .inr ⟨[], e, entries, w, _, rfl, rfl, rfl, .nil style w, hentry,
          .of_writeEntry hentry⟩

/-- What writing a file map does, whether it succeeds or fails.

It succeeds with the number of entries, all of which have been written. Or it
fails at the first entry that cannot be written, which means that those in front
of it can, and these have been written then. If the file of the entry could not be
opened, the failure is that of its path or of the directory that the path lies in,
and beyond the entries in front there are new directories at most, on the ways to
these and to the one that failed. If its file was opened and a fault came before the
last of its bytes, the failure is this fault, and what arrived until then has been
written too. -/
theorem writeFileMap_effect {files : FileMap} {r : Except WriteError Nat}
    (hplaces : DistinctPlaces w.cwd files.entries)
    (h : (writeFileMap style files : StateM Workspace _) w = (r, w')) :
    (r = .ok files.entries.length ∧
      Effect style (inBytes files.entries) files.entries w w') ∨
    ∃ done e rest middle error, files.entries = done ++ e :: rest ∧
      r = .error error ∧
      (writeEntries style 0 done : StateM Workspace _) w = (.ok done.length, middle) ∧
      Effect style (inBytes done) done w middle ∧
      (writeEntry style e.1 e.2 : StateM Workspace _) middle = (.error error, w') ∧
      Stopped style done e error w middle w' := by
  rw [writeFileMap] at h
  obtain ⟨hr, heffect⟩ | ⟨done, e, rest, middle, error, hsplit, hr, hdone, hrest⟩ :=
    writeEntries_effect hplaces h
  · rw [Nat.zero_add] at hr
    exact .inl ⟨hr, heffect⟩
  · rw [Nat.zero_add] at hdone
    exact .inr ⟨done, e, rest, middle, error, hsplit, hr, hdone, hrest⟩

/-- A file, and entries that append to it, make two directories, and then take the
file for a directory. -/
theorem writeFileMap_effect_halfWay :
    let text : String → Text := String.toList
    let old := Entry.file 0o644 (text "A").toBytes
    let w : Workspace := { tree := ⟨[([text "log"], old)]⟩, umask := 0o027 }
    let front : FileMap :=
      ⟨[(text "log", text "B"), (text "d/e/new", text "N")], by decide⟩
    let files : FileMap :=
      ⟨front.entries ++ [(text "log/x", text "X"), (text "z", text "Z")], by decide⟩
    let style : WriteStyle := ⟨.append, ⟨0o666, by decide⟩⟩
    let written : Workspace := { w with tree := ⟨[
      ([text "log"], .file 0o644 (text "AB").toBytes), ([text "d"], .directory),
      ([text "d", text "e"], .directory),
      ([text "d", text "e", text "new"], .file 0o640 (text "N").toBytes)]⟩ }
    (DistinctPlaces [] front.entries ∧
      (writeFileMap style front : StateM Workspace _) w = (.ok 2, written) ∧
      Effect style (inBytes front.entries) front.entries w written) ∧
    DistinctPlaces [] files.entries ∧
      (writeFileMap style files : StateM Workspace _) w =
        (.error ⟨text "log", .exists⟩, written) ∧
      ∃ done e rest, files.entries = done ++ e :: rest ∧
        (text "log" = e.1 ∨ Path.parent? e.1 = some (text "log")) ∧
        Effect style (inBytes done) (done ++ [e]) w written := by
  intro text old w front files style written
  have hfront : DistinctPlaces [] front.entries := by decide +kernel
  have hfiles : DistinctPlaces [] files.entries := by decide +kernel
  have hok : (writeFileMap style front : StateM Workspace _) w = (.ok 2, written) :=
    Prod.ext (by decide +kernel) (by decide +kernel)
  have herror : (writeFileMap style files : StateM Workspace _) w =
      (.error ⟨text "log", .exists⟩, written) :=
    Prod.ext (by decide +kernel) (by decide +kernel)
  refine ⟨⟨hfront, hok, ?_⟩, hfiles, herror, ?_⟩
  · obtain ⟨-, heffect⟩ | ⟨_, _, _, _, _, -, hr, -⟩ :=
      writeFileMap_effect (w := w) hfront hok
    · exact heffect
    · cases hr
  · obtain ⟨hr, -⟩ | ⟨done, e, rest, _, _, hsplit, hr, -, -, -, hstopped⟩ :=
      writeFileMap_effect (w := w) hfiles herror
    · cases hr
    · cases hr
      cases hstopped with
      | unopened hpath _ heffect => exact ⟨done, e, rest, hsplit, hpath, heffect⟩
      | brokenOff _ hmet => cases hmet

/-- A disk that is full after one byte of what is to be written. The file that was to
be replaced is lost, the file that was to be appended to is longer, and the file that
was to be created is there, with its directory. -/
theorem writeFileMap_brokenOff :
    let text : String → Text := String.toList
    let full : Fault := ⟨1, .other "No space left on device (os error 28)"⟩
    let old := ([text "log"], Entry.file 0o644 (text "old").toBytes)
    let w : Workspace := { tree := ⟨[old]⟩, faults := [some full] }
    let replacing : FileMap := ⟨[(text "log", text "new")], by decide⟩
    let creating : FileMap := ⟨[(text "d/x", text "new")], by decide⟩
    let left (entries : List (Location × Entry)) : Workspace := { tree := ⟨entries⟩ }
    (writeFileMap ⟨.truncate, .ownerOnly⟩ replacing : StateM Workspace _) w =
        (.error ⟨text "log", full.cause⟩,
          left [([text "log"], .file 0o644 (text "n").toBytes)]) ∧
      (writeFileMap {} replacing : StateM Workspace _) w =
        (.error ⟨text "log", full.cause⟩,
          left [([text "log"], .file 0o644 (text "oldn").toBytes)]) ∧
      (writeFileMap ⟨.createNew, .ownerOnly⟩ creating : StateM Workspace _) w =
        (.error ⟨text "d/x", full.cause⟩, left [old, ([text "d"], .directory),
          ([text "d", text "x"], .file 0o600 (text "n").toBytes)]) := by
  intro text full old w replacing creating left
  exact ⟨Prod.ext (by decide +kernel) (by decide +kernel),
    Prod.ext (by decide +kernel) (by decide +kernel),
    Prod.ext (by decide +kernel) (by decide +kernel)⟩

end Tangle
