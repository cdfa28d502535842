import Mathlib.Data.List.Flatten
import Tangle.Proofs.Delivery

/-!
# What arrives in a file

Blocks are grouped by the path that they name, letter by letter, and the groups
are written one after the other, each with a write of its own. A file is a place,
and a place can be spelled in many ways. So a file receives one group for each
spelling, and what arrives there depends on how the blocks that mean it are
spelled (`MultiRun.destination`).

When they are all spelled alike the file receives them in order. When they are
not, appending loses nothing but can put a block before one that was met earlier,
and truncating leaves the last group alone.
-/

namespace Tangle

open CommandLine (Invocation Extraction)

/-! ## Runs that come to an end -/

/-- A command line that sends the blocks of these documents to files has been
carried out to its end, with these settings. -/
inductive MultiRun (files : List Text) (s : Settings) (w w' : Workspace) : Prop
  | intro (env : Environment) (args : List Text) (inv : Invocation)
      (e : Extraction) (c : Config) (source : Option Text) (report : Report)
      (read : CommandLine.read args = .ok inv)
      (request : inv.request = .multi e)
      (names : e.files = files)
      (configured : w.configuration env inv = .ok (c, source))
      (settings : mergeSettings c e.flags = s)
      (runs : (run env args : StateM Workspace _) w = (report, w'))
      (succeeds : report.status ≠ 2)

theorem MultiRun.of_status {env : Environment} {args : List Text}
    {inv : Invocation} {e : Extraction} {c : Config} {source : Option Text}
    {s : Settings} {w : Workspace} (hread : CommandLine.read args = .ok inv)
    (hrequest : inv.request = .multi e)
    (hc : w.configuration env inv = .ok (c, source))
    (hs : mergeSettings c e.flags = s)
    (hstatus : ((run env args : StateM Workspace Report) w).1.status ≠ 2) :
    MultiRun e.files s w ((run env args : StateM Workspace Report) w).2 :=
  .intro env args inv e c source _ hread hrequest rfl hc hs rfl hstatus

theorem MultiRun.stored {files : List Text} {s : Settings} {w w' : Workspace}
    (h : MultiRun files s w w') :
    ∃ documents, w.documents files = .ok documents ∧
      Stored s.style (FileMap.ofEntries (s.options.routed documents)).entries
        w w' := by
  obtain ⟨env, args, inv, e, c, source, report, hread, hrequest, rfl, hc, rfl, hruns,
    hstatus⟩ := h
  have hextraction : inv.request.extraction? = some e := by
    rw [hrequest]
    rfl
  cases hd : w.documents e.files with
  | error error =>
      have hrefused := refused_of_unreadable hread hextraction hc hd
      rw [hruns] at hrefused
      exact absurd hrefused.status hstatus
  | ok documents =>
      have hready : Ready env inv e w (mergeSettings c e.flags) documents :=
        ⟨⟨c, source, hc, rfl⟩, hd⟩
      have hfollowed := followed_of_ready hread hextraction hready
      rw [hruns] at hfollowed
      have hstored := hfollowed.carriedOut.complete (decide_eq_false hstatus)
      rw [hrequest] at hstored
      exact ⟨documents, rfl, hstored⟩

/-! ## What is sent to one place -/

/-- The routes whose paths name a place. -/
def routesAt (cwd l : Location) (routes : List (Text × Text)) :
    List (Text × Text) :=
  routes.filter fun e => FileTree.locate cwd e.1 = l

/-- The paths that routes name, each where it is first met. -/
def spellings (routes : List (Text × Text)) : List Text :=
  (routes.map Prod.fst).eraseDups

/-- The texts that are written to a place are those of a group for each
spelling. -/
theorem textsAt_entries_ofEntries (cwd l : Location)
    (routes : List (Text × Text)) :
    textsAt cwd l (FileMap.ofEntries routes).entries =
      (FileMap.ofEntries (routesAt cwd l routes)).entries.map Prod.snd := by
  rw [textsAt, FileMap.filter_entries_ofEntries
    (fun p => decide (FileTree.locate cwd p = l)), routesAt]

theorem map_snd_entries_ofEntries (routes : List (Text × Text)) :
    (FileMap.ofEntries routes).entries.map Prod.snd =
      (spellings routes).map fun p => textUnder p routes := by
  rw [FileMap.entries_ofEntries, List.map_map, spellings]
  rfl

theorem flatten_map_snd_entries (files : FileMap) :
    (files.entries.map Prod.snd).flatten = files.contents := List.flatMap_def.symm

/-! ## Leaving elements out -/

theorem filter_flatMap_eq_iff {α β : Type} {p : α → Bool} {f : α → List β}
    {as : List α} : (as.filter p).flatMap f = as.flatMap f ↔
      ∀ a ∈ as, p a = false → f a = [] := by
  induction as with
  | nil => exact ⟨fun _ => nofun, fun _ => rfl⟩
  | cons a as ih =>
      rw [List.forall_mem_cons, ← ih]
      cases hp : p a
      · rw [List.filter_cons_of_neg (by simp [hp]), List.flatMap_cons]
        constructor
        · -- What is left is no longer than all the rest, so nothing comes first.
          intro h
          have hle : ((as.filter p).flatMap f).length ≤ (as.flatMap f).length :=
            (List.filter_sublist.flatMap f).length_le
          have hlength := congrArg List.length h
          rw [List.length_append] at hlength
          have hnil : f a = [] := List.eq_nil_of_length_eq_zero (by omega)
          exact ⟨fun _ => hnil, by rw [h, hnil, List.nil_append]⟩
        · rintro ⟨hnil, h⟩
          rw [hnil rfl, h, List.nil_append]
      · rw [List.filter_cons_of_pos hp, List.flatMap_cons, List.flatMap_cons,
          List.append_cancel_left_eq]
        exact ⟨fun h => ⟨nofun, h⟩, fun h => h.2⟩

theorem toBytes_eq_nil_iff {text : Text} : text.toBytes = [] ↔ text = [] := by
  constructor
  · intro h
    cases text with
    | nil => rfl
    | cons c text =>
        rw [Text.toBytes, List.flatMap_cons, List.append_eq_nil_iff] at h
        have hlength := congrArg List.length h.1
        rw [String.length_utf8EncodeChar] at hlength
        exact absurd hlength c.utf8Size_pos.ne'
  · rintro rfl
    rfl

theorem toBytes_flatMap (entries : List (Text × Text)) :
    Text.toBytes (entries.flatMap Prod.snd) =
      entries.flatMap fun e => e.2.toBytes := List.flatMap_assoc

/-! ## What the groups come to -/

section

variable {policy : WritePolicy} {old : List UInt8} {here : List (Text × Text)}

theorem bytesAfterAll_singleton (policy : WritePolicy) (old : List UInt8)
    (text : Text) : bytesAfterAll policy old [text] =
      (if policy = .append then old else []) ++ text.toBytes := by
  rw [bytesAfterAll, List.foldl_cons, List.foldl_nil, FileTree.bytesAfter]
  split <;> rfl

theorem bytesAfterAll_of_append (h : policy = .append) :
    bytesAfterAll policy old ((FileMap.ofEntries here).entries.map Prod.snd) =
      old ++ (FileMap.ofEntries here).contents.toBytes := by
  rw [h, bytesAfterAll_append, flatten_map_snd_entries]

/-- Without appending the group of the last spelling is what is left. -/
theorem bytesAfterAll_of_last (h : policy ≠ .append) {last : Text}
    (hlast : (spellings here).getLast? = some last) :
    bytesAfterAll policy old ((FileMap.ofEntries here).entries.map Prod.snd) =
      (textUnder last here).toBytes := by
  obtain ⟨front, hspellings⟩ := List.getLast?_eq_some_iff.1 hlast
  rw [map_snd_entries_ofEntries, hspellings, List.map_append, List.map_singleton,
    bytesAfterAll_concat h]

/-- The texts under one path are all texts only if the others are empty. -/
theorem toBytes_textUnder_eq_iff {path : Text} :
    (textUnder path here).toBytes = Text.toBytes (here.flatMap Prod.snd) ↔
      ∀ e ∈ here, e.1 ≠ path → e.2 = [] := by
  rw [textUnder, toBytes_flatMap, toBytes_flatMap, filter_flatMap_eq_iff]
  simp only [toBytes_eq_nil_iff, decide_eq_false_iff_not, ne_eq]

end

theorem Stored.find?_routesAt {style : WriteStyle} {routes : List (Text × Text)}
    {w w' : Workspace} (h : Stored style (FileMap.ofEntries routes).entries w w')
    {l : Location} (hl : routesAt w.cwd l routes ≠ []) :
    w'.tree.find? l = some (.file
      (FileTree.modeAfter w.umask style (w.tree.find? l))
      (bytesAfterAll style.policy (FileTree.contentOf (w.tree.find? l))
        ((FileMap.ofEntries (routesAt w.cwd l routes)).entries.map Prod.snd))) := by
  obtain ⟨route, hroute⟩ := List.exists_mem_of_ne_nil _ hl
  obtain ⟨hroutes, hplace⟩ := List.mem_filter.1 hroute
  have hpath : route.1 ∈ (FileMap.ofEntries routes).paths :=
    FileMap.mem_paths_ofEntries.2 (List.mem_map_of_mem hroutes)
  obtain ⟨entry, hentry, hname⟩ := List.mem_map.1 hpath
  have hfile := h.find?_destination hentry
  rw [hname, of_decide_eq_true hplace, textsAt_entries_ofEntries] at hfile
  exact hfile

/-- What a destination holds after a run that sent blocks to files.

It holds what was there, if the run appends, and then the texts of its blocks,
grouped by spelling; if the run does not append, the last group only. Blocks that
spell it alike arrive in order. However they spell it, appending loses none of
their text; and without appending they arrive in order exactly if there is no text
under any spelling but the one that is met last. -/
theorem MultiRun.destination {files : List Text} {s : Settings} {w w' : Workspace}
    (h : MultiRun files s w w') :
    ∃ documents, w.documents files = .ok documents ∧
      ∀ l, let here := routesAt w.cwd l (s.options.routed documents)
        here ≠ [] →
        let before := w.tree.find? l
        let base := if s.style.policy = .append then FileTree.contentOf before else []
        let file := Entry.file (FileTree.modeAfter w.umask s.style before)
        let inOrder := file (base ++ Text.toBytes (here.flatMap Prod.snd))
        w'.tree.find? l = some (file (bytesAfterAll s.style.policy
          (FileTree.contentOf before)
          ((spellings here).map fun p => textUnder p here))) ∧
        ((∀ e ∈ here, ∀ f ∈ here, e.1 = f.1) →
          w'.tree.find? l = some inOrder) ∧
        (s.style.policy = .append → ∃ text : Text,
          text.Perm (here.flatMap Prod.snd) ∧
          w'.tree.find? l = some (file (base ++ text.toBytes))) ∧
        (s.style.policy ≠ .append → ∀ last, (spellings here).getLast? = some last →
          (w'.tree.find? l = some inOrder ↔
            ∀ e ∈ here, e.1 ≠ last → e.2 = [])) := by
  obtain ⟨documents, hd, hstored⟩ := h.stored
  refine ⟨documents, hd, fun l => ?_⟩
  intro here hne before base file inOrder
  have hfile : w'.tree.find? l = some (file (bytesAfterAll s.style.policy
      (FileTree.contentOf before)
      ((FileMap.ofEntries here).entries.map Prod.snd))) :=
    hstored.find?_routesAt hne
  refine ⟨?_, fun halike => ?_, fun happend => ?_, fun hpolicy last hlast => ?_⟩
  · rw [hfile, map_snd_entries_ofEntries]
  · obtain ⟨first, hfirst⟩ := List.exists_mem_of_ne_nil _ hne
    rw [hfile, FileMap.entries_ofEntries_alike hne
      fun e he => halike e he first hfirst]
    exact congrArg (fun bytes => some (file bytes)) (bytesAfterAll_singleton ..)
  · refine ⟨_, FileMap.contents_ofEntries_perm here, ?_⟩
    have hbase : base = FileTree.contentOf before := if_pos happend
    rw [hfile, bytesAfterAll_of_append happend, hbase]
  · rw [hfile, bytesAfterAll_of_last hpolicy hlast, ← toBytes_textUnder_eq_iff]
    simp only [inOrder, file, base, if_neg hpolicy, List.nil_append,
      Option.some.injEq, Entry.file.injEq, true_and]

/-! ## Spellings that differ -/

/-- A document with a block for each path, and a line in it. -/
def sendingDocument (blocks : List (String × String)) : Text :=
  blocks.flatMap fun (path, line) => s!"```file={path}\n{line}\n```\n".toList

/-- A workspace that has one document, and other files. -/
def sendingWorkspace (blocks : List (String × String))
    (others : List (Text × List UInt8)) : Workspace :=
  filesAtRoot (("a.md".toList, (sendingDocument blocks).toBytes) :: others)

/-- A command that sends the blocks of documents to files. -/
def sendingInvocation (files : List Text) (flags : FilterFlags) : Invocation where
  request := .multi ⟨files, flags, false⟩

/-- What such a command leaves that has no flags. -/
def sent (files : List Text) (w : Workspace) : Workspace :=
  ((run { directory := ['/'] } ("multi".toList :: files) :
    StateM Workspace Report) w).2

theorem multiRun_sent {files : List Text} {w : Workspace}
    (hread : CommandLine.read ("multi".toList :: files) =
      .ok (sendingInvocation files {}))
    (hc : w.configuration { directory := ['/'] } (sendingInvocation files {}) =
      .ok ({}, none))
    (hstatus : ((run { directory := ['/'] } ("multi".toList :: files) :
      StateM Workspace Report) w).1.status ≠ 2) :
    MultiRun files ⟨{}, {}⟩ w (sent files w) :=
  .of_status hread rfl hc rfl hstatus

/-- Three blocks for one file, the second of which spells it in another way: all
of it is there, behind what was there, but the third block comes before the
second. -/
theorem MultiRun.destination_regrouped :
    let w := sendingWorkspace [("x", "A"), ("./x", "B"), ("x", "C")]
      [("x".toList, Text.toBytes "0\n".toList)]
    let w' := sent ["a.md".toList] w
    MultiRun ["a.md".toList] ⟨{}, {}⟩ w w' ∧
      w'.tree.find? ["x".toList] =
        some (.file 0o644 (Text.toBytes "0\nA\nC\nB\n".toList)) := by
  intro w w'
  have hrun : MultiRun ["a.md".toList] ⟨{}, {}⟩ w w' :=
    multiRun_sent (by rfl) (by decide +kernel) (by decide +kernel)
  obtain ⟨documents, hd, hplaces⟩ := MultiRun.destination hrun
  have hdocuments : w.documents ["a.md".toList] =
      .ok [sendingDocument [("x", "A"), ("./x", "B"), ("x", "C")]] := by
    decide +kernel
  cases hdocuments.symm.trans hd
  exact ⟨hrun, (hplaces ["x".toList] (by decide +kernel)).1.trans
    (by decide +kernel)⟩

/-- Two blocks for one file that are spelled in different ways: when the run
truncates, the first of them is lost. -/
theorem multiRun_spelledApart :
    let blocks := [("d/x", "A"), ("d//x", "B")]
    let w := sendingWorkspace blocks []
    let args := ["multi".toList, "--write-mode".toList, "truncate".toList,
      "a.md".toList]
    let w' := ((run { directory := ['/'] } args : StateM Workspace Report) w).2
    let s : Settings := ⟨{}, ⟨.truncate, .ownerOnly⟩⟩
    let here := routesAt w.cwd ["d".toList, "x".toList]
      (s.options.routed [sendingDocument blocks])
    MultiRun ["a.md".toList] s w w' ∧
      w.documents ["a.md".toList] = .ok [sendingDocument blocks] ∧
      here.flatMap Prod.snd = "A\nB\n".toList ∧
      w'.tree.find? ["d".toList, "x".toList] =
        some (.file 0o600 (Text.toBytes "B\n".toList)) ∧
      w'.tree.find? ["d".toList, "x".toList] ≠
        some (.file 0o600 (Text.toBytes (here.flatMap Prod.snd))) := by
  intro blocks w args w' s here
  have hread : CommandLine.read args =
      .ok (sendingInvocation ["a.md".toList] { writeMode := some .truncate }) := by
    rfl
  have hc : w.configuration { directory := ['/'] }
      (sendingInvocation ["a.md".toList] { writeMode := some .truncate }) =
        .ok ({}, none) := by decide +kernel
  have hrun : MultiRun ["a.md".toList] s w w' :=
    .of_status hread rfl hc rfl (by decide +kernel)
  exact ⟨hrun, by decide +kernel, by decide +kernel, by decide +kernel,
    by decide +kernel⟩

end Tangle
