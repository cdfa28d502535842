import Tangle.Proofs.EntryWriting
import Tangle.Proofs.Reading

/-!
# Everything is read before anything is written

Once the documents are read, a command that extracts has nothing left but a plan:
the text that it prints and the entries that it writes. The plan is made from the
settings and the texts of the documents alone (`Request.printed`,
`Request.planned`). What follows can stop half way, and it can overwrite the
documents or the configuration themselves; it is still the plan, or the beginning
of it, that is carried out.

If there is no plan, because the configuration or a document cannot be had, then
nothing has been done either, since reading does nothing to the workspace.
-/

namespace Tangle

open CommandLine (Invocation Extraction Request)

/-! ## The plan -/

/-- The blocks of the documents that go to a file, with the paths that they name,
in the order of the documents and in document order. -/
def ExtractOptions.routed (o : ExtractOptions) (documents : List Text) :
    List (Text × Text) :=
  documents.flatMap fun d => (visits (o.walker.walk d)).filterMap o.filter.route?

/-- The texts of all documents' blocks that pass. -/
def ExtractOptions.passed (o : ExtractOptions) (documents : List Text) : Text :=
  documents.flatMap fun d => o.filter.single (visits (o.walker.walk d))

/-- The warnings about all documents. -/
def ExtractOptions.warned (o : ExtractOptions) (documents : List Text) :
    List String :=
  documents.flatMap fun d => warnings (o.walker.walk d)

theorem ExtractOptions.merge_multi (o : ExtractOptions) (documents : List Text) :
    (documents.map fun d => (o.multi d).value).foldl FileMap.merge .empty =
      .ofEntries (o.routed documents) :=
  FileMap.foldl_merge_ofEntries .empty _ documents

/-- What a command extracts. -/
def CommandLine.Request.extraction? : Request → Option Extraction
  | .single e _ => some e
  | .multi e => some e
  | _ => none

theorem CommandLine.Request.extraction?_eq_some_iff {request : Request}
    {e : Extraction} : request.extraction? = some e ↔
      (∃ output, request = .single e output) ∨ request = .multi e := by
  cases request <;> simp [extraction?]

/-- What a command prints that has these documents. -/
def CommandLine.Request.printed (s : Settings) (documents : List Text) : Request → Text
  | .single _ output =>
    match OutputTarget.parse output with
    | .stdout => s.options.passed documents
    | .file _ => []
  | _ => []

/-- What a command writes that has these documents. -/
def CommandLine.Request.planned (s : Settings) (documents : List Text) :
    Request → List (Text × Text)
  | .single _ output =>
    match OutputTarget.parse output with
    | .stdout => []
    | .file path => [(path, s.options.passed documents)]
  | .multi _ => (FileMap.ofEntries (s.options.routed documents)).entries
  | _ => []

/-! ## Carrying it out -/

/-- A plan has been carried out, or the beginning of it: what has been written
are entries of the plan from its front, and beyond that there are new directories
at most, or the next entry is there in part, because its write broke off. If nothing
failed then all of it has been written. -/
structure CarriedOut (style : WriteStyle) (plan : List (Text × Text))
    (failed : Bool) (w w' : Workspace) : Prop where
  begun : ∃ done middle, done <+: plan ∧ Stored style done w middle ∧
    (Made (fun _ => True) middle w' ∨
      ∃ e fault, done ++ [e] <+: plan ∧ BrokenOff style e fault middle w')
  complete : failed = false → Stored style plan w w'

section

variable {style : WriteStyle} {plan : List (Text × Text)} {w w' : Workspace}

theorem CarriedOut.of_stored {failed : Bool} (h : Stored style plan w w') :
    CarriedOut style plan failed w w' :=
  ⟨⟨plan, w', List.prefix_rfl, h, .inl (.refl _ _)⟩, fun _ => h⟩

/-- An entry of the plan fails behind those that have been written. -/
theorem CarriedOut.of_failure {done rest : List (Text × Text)} {e : Text × Text}
    {middle : Workspace} {error : WriteError} (hplan : plan = done ++ e :: rest)
    (hstored : Stored style done w middle)
    (herror : (writeEntry style e.1 e.2 : StateM Workspace _) middle =
      (.error error, w')) :
    CarriedOut style plan true w w' := by
  refine ⟨⟨done, middle, ⟨e :: rest, hplan.symm⟩, hstored, ?_⟩, nofun⟩
  obtain ⟨hmade, -⟩ | ⟨fault, -, hbroken⟩ := writeEntry_error herror
  · exact .inl (hmade.mono fun _ _ => trivial)
  · refine .inr ⟨e, fault, ⟨rest, ?_⟩, hbroken⟩
    rw [List.append_assoc, List.singleton_append, hplan]

theorem writeFile_carriedOut {p content : Text} {r : Except WriteError Unit}
    (h : (writeFile style p content : StateM Workspace _) w = (r, w')) :
    CarriedOut style [(p, content)] (!r.isOk) w w' := by
  obtain ⟨rfl, -, hfilled⟩ | ⟨fault, rfl, hfault, hfilled⟩ | ⟨cause, rfl, rfl⟩ :=
    writeFile_run h
  · exact .of_stored (.cons (hfilled.put (.refl _ w)) (.nil style w'))
  · obtain ⟨hnext, hshort⟩ := Workspace.nextFault?_eq_some_iff.1 hfault
    exact ⟨⟨[], w, List.nil_prefix, .nil style w, .inr ⟨_, fault, List.prefix_rfl,
      hnext, hshort, hfilled.put (.refl _ w)⟩⟩, nofun⟩
  · exact ⟨⟨[], w', List.nil_prefix, .nil style w', .inl (.refl _ w')⟩, nofun⟩

theorem writeFileMap_carriedOut {files : FileMap} {r : Except WriteError Nat}
    (h : (writeFileMap style files : StateM Workspace _) w = (r, w')) :
    CarriedOut style files.entries (!r.isOk) w w' := by
  obtain ⟨rfl, hstored⟩ | ⟨done, e, rest, middle, error, hsplit, rfl, hdone, herror⟩ :=
    writeEntries_run h
  · exact .of_stored hstored
  · exact .of_failure hsplit hdone herror

end

section

variable {env : Environment} {inv : Invocation} {e : Extraction}
  {s : Settings} {documents : List Text} {w : Workspace}

/-- What a command that extracts comes to: it fails or prints what it is to
print, and its plan is carried out. -/
structure Delivers (s : Settings) (documents : List Text) (request : Request)
    (w : Workspace) (answer : Logged (Except Failure Outcome) × Workspace) :
    Prop where
  warnings : answer.1.warnings = s.options.warned documents
  printed : ∀ outcome, answer.1.value = .ok outcome →
    outcome.stdout = request.printed s documents ∧ outcome.stderr = []
  silent : ∀ failure, answer.1.value = .error failure →
    request.printed s documents = []
  carriedOut : CarriedOut s.style (request.planned s documents)
    (!answer.1.value.isOk) w answer.2

theorem runMulti_of_ready (h : Ready env inv e w s documents) :
    let files := FileMap.ofEntries (s.options.routed documents)
    let answer := (writeFileMap s.style files : StateM Workspace _) w
    (runMulti env inv e : StateM Workspace _) w =
      (⟨(answer.1.mapError Failure.write).map fun written =>
          { nothingExtracted := written = 0 && e.failOnEmpty },
        s.options.warned documents⟩, answer.2) := by
  dsimp only
  unfold runMulti
  simp only [bind, StateT.bind, extractAll_of_ready ExtractOptions.multi h]
  rw [ExtractOptions.merge_multi]
  generalize (writeFileMap s.style (.ofEntries (s.options.routed documents)) :
    StateM Workspace _) w = answer
  obtain ⟨r, w'⟩ := answer
  cases r <;> rfl

theorem runSingle_of_ready (output : Text) (h : Ready env inv e w s documents) :
    let content := s.options.passed documents
    let nothingExtracted := content.isEmpty && e.failOnEmpty
    (runSingle env inv e output : StateM Workspace _) w =
      match OutputTarget.parse output with
      | .stdout => (⟨.ok { stdout := content, nothingExtracted },
          s.options.warned documents⟩, w)
      | .file path =>
        let answer := (writeFile s.style path content : StateM Workspace _) w
        (⟨(answer.1.mapError (Failure.writeOutput output)).map fun _ =>
            { nothingExtracted }, s.options.warned documents⟩, answer.2) := by
  intro content nothingExtracted
  have hcontent : (documents.map fun d => (s.options.single d).value).flatten =
      content := List.flatMap_def.symm
  unfold runSingle
  simp only [bind, StateT.bind, extractAll_of_ready ExtractOptions.single h]
  rw [hcontent]
  cases OutputTarget.parse output with
  | stdout => rfl
  | file path =>
      dsimp only [StateT.bind]
      generalize (writeFile s.style path content : StateM Workspace _) w = answer
      obtain ⟨r, w'⟩ := answer
      cases r <;> rfl

theorem runMulti_delivers (h : Ready env inv e w s documents) :
    Delivers s documents (.multi e) w
      ((runMulti env inv e : StateM Workspace _) w) := by
  rw [runMulti_of_ready h]
  cases hwrite : (writeFileMap s.style (.ofEntries (s.options.routed documents)) :
      StateM Workspace _) w with
  | mk r w' =>
      have hcarried := writeFileMap_carriedOut hwrite
      cases r with
      | ok written =>
          refine ⟨rfl, ?_, nofun, hcarried⟩
          rintro outcome ⟨⟩
          exact ⟨rfl, rfl⟩
      | error error => exact ⟨rfl, nofun, fun _ _ => rfl, hcarried⟩

theorem runSingle_delivers (output : Text) (h : Ready env inv e w s documents) :
    Delivers s documents (.single e output) w
      ((runSingle env inv e output : StateM Workspace _) w) := by
  rw [runSingle_of_ready output h]
  cases ho : OutputTarget.parse output with
  | stdout =>
      refine ⟨rfl, ?_, nofun, ?_⟩
      · rintro outcome ⟨⟩
        rw [CommandLine.Request.printed, ho]
        exact ⟨rfl, rfl⟩
      · rw [CommandLine.Request.planned, ho]
        exact .of_stored (.nil s.style w)
  | file path =>
      dsimp only
      cases hwrite : (writeFile s.style path (s.options.passed documents) :
          StateM Workspace _) w with
      | mk r w' =>
          have hcarried := writeFile_carriedOut hwrite
          have hplanned : (Request.single e output).planned s documents =
              [(path, s.options.passed documents)] := by
            rw [CommandLine.Request.planned, ho]
          have hprinted : (Request.single e output).printed s documents = [] := by
            rw [CommandLine.Request.printed, ho]
          cases r with
          | ok u =>
              refine ⟨rfl, ?_, nofun, hplanned ▸ hcarried⟩
              rintro outcome ⟨⟩
              exact ⟨hprinted.symm, rfl⟩
          | error error =>
              exact ⟨rfl, nofun, fun _ _ => hprinted, hplanned ▸ hcarried⟩

theorem carryOut_of_single {output : Text} (h : inv.request = .single e output) :
    (carryOut env inv : StateM Workspace _) = runSingle env inv e output := by
  rw [carryOut, h]

theorem carryOut_of_multi (h : inv.request = .multi e) :
    (carryOut env inv : StateM Workspace _) = runMulti env inv e := by
  rw [carryOut, h]

theorem carryOut_delivers (hrequest : inv.request.extraction? = some e)
    (h : Ready env inv e w s documents) :
    Delivers s documents inv.request w
      ((carryOut env inv : StateM Workspace _) w) := by
  obtain ⟨output, hr⟩ | hr :=
    CommandLine.Request.extraction?_eq_some_iff.1 hrequest
  · rw [carryOut_of_single hr, hr]
    exact runSingle_delivers output h
  · rw [carryOut_of_multi hr, hr]
    exact runMulti_delivers h

theorem carryOut_of_extractAll_error {failure : Failure}
    (hrequest : inv.request.extraction? = some e)
    (h : ∀ (α : Type) (extract : ExtractOptions → Text → Logged α),
      ∃ warnings, (extractAll env inv e extract : StateM Workspace _) w =
        (⟨.error failure, warnings⟩, w)) :
    ∃ warnings, (carryOut env inv : StateM Workspace _) w =
      (⟨.error failure, warnings⟩, w) := by
  obtain ⟨output, hr⟩ | hr :=
    CommandLine.Request.extraction?_eq_some_iff.1 hrequest
  · obtain ⟨warnings, hall⟩ := h _ ExtractOptions.single
    refine ⟨warnings, ?_⟩
    rw [carryOut_of_single hr]
    unfold runSingle
    simp only [bind, StateT.bind, hall]
    rfl
  · obtain ⟨warnings, hall⟩ := h _ ExtractOptions.multi
    refine ⟨warnings, ?_⟩
    rw [carryOut_of_multi hr]
    unfold runMulti
    simp only [bind, StateT.bind, hall]
    rfl

/-- A command that does not have all that it reads fails and does nothing. -/
theorem ready_or_untouched (hrequest : inv.request.extraction? = some e)
    (w : Workspace) : (∃ s documents, Ready env inv e w s documents) ∨
      ∃ failure warnings, (carryOut env inv : StateM Workspace _) w =
        (⟨.error failure, warnings⟩, w) := by
  cases hc : w.configuration env inv with
  | error cause =>
      exact .inr ⟨_, carryOut_of_extractAll_error hrequest
        fun _ extract => ⟨[], extractAll_of_no_configuration extract hc⟩⟩
  | ok found =>
      obtain ⟨c, source⟩ := found
      cases hd : w.documents e.files with
      | error cause =>
          exact .inr ⟨_, carryOut_of_extractAll_error hrequest
            fun _ extract => extractAll_of_unreadable extract hc hd⟩
      | ok documents => exact .inl ⟨_, documents, ⟨c, source, hc, rfl⟩, hd⟩

/-! ## The report -/

/-- A run has failed before it did anything, and says why at the end. -/
structure Refused (failure : Failure) (w : Workspace)
    (answer : Report × Workspace) : Prop where
  status : answer.1.status = 2
  stdout : answer.1.stdout = []
  named : answer.1.stderr.getLast? = some s!"Error: {failure.message}"
  untouched : answer.2 = w

/-- A run has followed its plan: it prints what the plan says and the warnings
about the documents, and carries out the entries. A failure, if there is one,
comes last. -/
structure Followed (env : Environment) (inv : Invocation) (s : Settings)
    (documents : List Text) (w : Workspace) (answer : Report × Workspace) :
    Prop where
  stdout : answer.1.stdout = inv.request.printed s documents
  stderr : ∃ failure?, answer.1.stderr = (logFilter env inv).2 ++
      logLines (logFilter env inv).1 (s.options.warned documents) ++ failure? ∧
    (answer.1.status ≠ 2 → failure? = [])
  carriedOut : CarriedOut s.style (inv.request.planned s documents)
    (answer.1.status = 2) w answer.2

theorem run_of_read {args : List Text} (hread : CommandLine.read args = .ok inv)
    (w : Workspace) : (run env args : StateM Workspace _) w =
      (.ofOutcome (logFilter env inv) ((carryOut env inv : StateM Workspace _) w).1,
        ((carryOut env inv : StateM Workspace _) w).2) := by
  unfold run
  rw [hread]
  rfl

theorem status_ofOutcome_ok (log : LogFilter × List String) (outcome : Outcome)
    (warnings : List String) :
    (Report.ofOutcome log ⟨.ok outcome, warnings⟩).status ≠ 2 := by
  rw [Report.ofOutcome]
  dsimp only
  split <;> decide

theorem refused_of_carryOut {args : List Text} {failure : Failure}
    (hread : CommandLine.read args = .ok inv)
    (h : ∃ warnings, (carryOut env inv : StateM Workspace _) w =
      (⟨.error failure, warnings⟩, w)) :
    Refused failure w ((run env args : StateM Workspace _) w) := by
  obtain ⟨warnings, h⟩ := h
  rw [run_of_read hread, h]
  exact ⟨rfl, rfl, List.getLast?_concat .., rfl⟩

/-- A command that does not fail has all that it reads. -/
theorem ready_of_status {args : List Text} (hread : CommandLine.read args = .ok inv)
    (hrequest : inv.request.extraction? = some e)
    (hstatus : ((run env args : StateM Workspace Report) w).1.status ≠ 2) :
    ∃ s documents, Ready env inv e w s documents := by
  obtain hready | ⟨failure, hfailed⟩ := ready_or_untouched hrequest w
  · exact hready
  · exact absurd (refused_of_carryOut hread hfailed).status hstatus

theorem refused_of_unreadable {args : List Text} {c : Config}
    {source : Option Text} {error : ReadError}
    (hread : CommandLine.read args = .ok inv)
    (hrequest : inv.request.extraction? = some e)
    (hc : w.configuration env inv = .ok (c, source))
    (hd : w.documents e.files = .error error) :
    Refused (.read error) w ((run env args : StateM Workspace _) w) :=
  refused_of_carryOut hread (carryOut_of_extractAll_error hrequest
    fun _ extract => extractAll_of_unreadable extract hc hd)

theorem followed_of_delivers {args : List Text}
    (hread : CommandLine.read args = .ok inv)
    (h : Delivers s documents inv.request w
      ((carryOut env inv : StateM Workspace _) w)) :
    Followed env inv s documents w ((run env args : StateM Workspace _) w) := by
  rw [run_of_read hread]
  generalize (carryOut env inv : StateM Workspace _) w = answer at h ⊢
  obtain ⟨⟨value, warnings⟩, w'⟩ := answer
  obtain ⟨hwarnings, hprinted, hsilent, hcarried⟩ := h
  subst hwarnings
  cases value with
  | error failure =>
      exact ⟨(hsilent failure rfl).symm, ⟨_, rfl, fun hne => absurd rfl hne⟩,
        hcarried⟩
  | ok outcome =>
      obtain ⟨hstdout, hstderr⟩ := hprinted outcome rfl
      have hstatus := status_ofOutcome_ok (logFilter env inv) outcome
        (s.options.warned documents)
      refine ⟨hstdout, ⟨[], ?_, fun _ => rfl⟩, ?_⟩
      · rw [Report.ofOutcome, ← hstderr]
      · dsimp only
        rw [decide_eq_false hstatus]
        exact hcarried

theorem followed_of_ready {args : List Text}
    (hread : CommandLine.read args = .ok inv)
    (hrequest : inv.request.extraction? = some e)
    (h : Ready env inv e w s documents) :
    Followed env inv s documents w ((run env args : StateM Workspace _) w) :=
  followed_of_delivers hread (carryOut_delivers hrequest h)

end

/-- A workspace with these files at its root. -/
def filesAtRoot (files : List (Text × List UInt8)) : Workspace :=
  { tree := ⟨files.map fun f => ([f.1], .file 0o644 f.2)⟩ }

end Tangle
