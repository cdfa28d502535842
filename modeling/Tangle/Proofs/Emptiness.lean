import Tangle.Proofs.Destinations
import Tangle.Proofs.Routing

/-!
# Nothing extracted

A command can be asked to tell by its status whether there was anything to extract.
Extraction to files goes by the files that it has written, and there is one for
every block with a destination, so its status is right whatever the blocks hold.
Extraction to one text goes by the text (`run_status`). A text is empty also when
all its blocks are, and then the status says that there was no block
(`run_status_emptyBlock`).
-/

namespace Tangle

open CommandLine (Invocation Extraction Request)

/-- Whether a command extracts a block. -/
def CommandLine.Request.extracts (s : Settings) (v : Visit) : Request → Bool
  | .single _ _ => s.options.filter.accepts v.tags
  | .multi _ =>
    (destination? v.tags).isSome && s.options.filter.accepts (plainTags v.tags)
  | _ => false

/-- The blocks of the documents that a command extracts. -/
def CommandLine.Request.extracted (s : Settings) (documents : List Text)
    (request : Request) : List Visit :=
  documents.flatMap fun d =>
    (visits (s.options.walker.walk d)).filter fun v => request.extracts s v

section

variable {s : Settings} {documents : List Text}

theorem passed_eq_nil_iff (e : Extraction) (output : Text) :
    s.options.passed documents = [] ↔
      ∀ v ∈ (Request.single e output).extracted s documents, v.literal = [] := by
  have htext : s.options.passed documents =
      ((Request.single e output).extracted s documents).flatMap Visit.literal :=
    List.flatMap_assoc.symm
  rw [htext, List.flatMap_eq_nil_iff]

theorem routed_eq_nil_iff (e : Extraction) :
    s.options.routed documents = [] ↔
      (Request.multi e).extracted s documents = [] := by
  have hroute (v : Visit) : s.options.filter.route? v = none ↔
      ¬ (Request.multi e).extracts s v = true := by
    rw [s.options.filter.route?_eq, CommandLine.Request.extracts, Visit.route?]
    cases destination? v.tags <;> simp
  rw [ExtractOptions.routed, CommandLine.Request.extracted, List.flatMap_eq_nil_iff,
    List.flatMap_eq_nil_iff]
  simp only [List.filterMap_eq_nil_iff, List.filter_eq_nil_iff, hroute]

theorem FileMap.entries_ofEntries_eq_nil_iff {entries : List (Text × Text)} :
    (ofEntries entries).entries = [] ↔ entries = [] := by
  have hpaths : (ofEntries entries).paths = [] ↔ entries.map Prod.fst = [] := by
    rw [List.eq_nil_iff_forall_not_mem, List.eq_nil_iff_forall_not_mem]
    exact forall_congr' fun p => not_congr mem_paths_ofEntries
  rwa [paths, List.map_eq_nil_iff, List.map_eq_nil_iff] at hpaths

end

section

variable {env : Environment} {inv : Invocation} {e : Extraction} {s : Settings}
  {documents : List Text} {w : Workspace}

/-- What a command takes for having extracted nothing: a text without characters,
or no files. -/
def CommandLine.Request.Vacant (s : Settings) (documents : List Text) :
    Request → Prop
  | .single _ _ => s.options.passed documents = []
  | .multi _ => s.options.routed documents = []
  | _ => False

theorem nothingExtracted_of_ready {outcome : Outcome}
    (hrequest : inv.request.extraction? = some e) (h : Ready env inv e w s documents)
    (hvalue : ((carryOut env inv : StateM Workspace _) w).1.value = .ok outcome) :
    outcome.nothingExtracted = true ↔
      e.failOnEmpty = true ∧ inv.request.Vacant s documents := by
  obtain ⟨output, hr⟩ | hr :=
    CommandLine.Request.extraction?_eq_some_iff.1 hrequest
  · rw [carryOut_of_single hr, runSingle_of_ready output h] at hvalue
    have houtcome : outcome.nothingExtracted =
        ((s.options.passed documents).isEmpty && e.failOnEmpty) := by
      cases ho : OutputTarget.parse output with
      | stdout => rw [ho] at hvalue; cases hvalue; rfl
      | file path =>
          rw [ho] at hvalue
          dsimp only at hvalue
          generalize (writeFile s.style path (s.options.passed documents) :
            StateM Workspace _) w = answer at hvalue
          obtain ⟨r, w'⟩ := answer
          -- a text that cannot be written is a failure and has no outcome
          cases r with
          | error cause => cases hvalue
          | ok u => cases hvalue; rfl
    rw [houtcome, hr, Bool.and_eq_true, List.isEmpty_iff, and_comm]
    rfl
  · rw [carryOut_of_multi hr, runMulti_of_ready h] at hvalue
    cases hwrite : (writeFileMap s.style (.ofEntries (s.options.routed documents)) :
        StateM Workspace _) w with
    | mk r w' =>
        rw [hwrite] at hvalue
        obtain ⟨rfl, -⟩ | ⟨_, _, _, _, _, _, rfl, _⟩ := writeEntries_run hwrite
        · cases hvalue
          rw [hr, Bool.and_eq_true, decide_eq_true_iff, Nat.zero_add,
            List.length_eq_zero_iff, FileMap.entries_ofEntries_eq_nil_iff, and_comm]
          rfl
        · cases hvalue

theorem status_eq_one_iff {args : List Text}
    (hread : CommandLine.read args = .ok inv)
    (hrequest : inv.request.extraction? = some e) (h : Ready env inv e w s documents) :
    let status := ((run env args : StateM Workspace Report) w).1.status
    status ≠ 2 → (status = 0 ∨ status = 1) ∧
      (status = 1 ↔ e.failOnEmpty = true ∧ inv.request.Vacant s documents) := by
  rw [run_of_read hread]
  cases hvalue : ((carryOut env inv : StateM Workspace _) w).1.value with
  | error failure =>
      intro status hne
      refine absurd ?_ hne
      simp only [status, Report.ofOutcome, hvalue]
  | ok outcome =>
      intro status _
      have hstatus : status = if outcome.nothingExtracted then 1 else 0 := by
        simp only [status, Report.ofOutcome, hvalue]
      rw [← nothingExtracted_of_ready hrequest h hvalue, hstatus]
      cases outcome.nothingExtracted <;> decide

theorem forall_literal_iff_eq_nil {blocks : List Visit} :
    ((∀ v ∈ blocks, v.literal = []) ↔ blocks = []) ↔
      (∃ v ∈ blocks, v.literal ≠ []) ∨ blocks = [] := by
  by_cases hblocks : blocks = []
  · subst hblocks
    exact ⟨fun _ => .inr rfl, fun _ => ⟨fun _ => rfl, fun _ => nofun⟩⟩
  · rw [iff_false_right hblocks, or_iff_left hblocks]
    simp only [not_forall, exists_prop, ne_eq]

/-- How the status of a run that has met no failure tells whether there was
anything to extract. It is 1 or 0, and 0 unless the run was to tell. To files
nothing was extracted exactly if no block was. To one text nothing was extracted if
no block has text, so the status is right exactly if there is text in one of the
blocks or there are no blocks. -/
theorem run_status {args : List Text} (hread : CommandLine.read args = .ok inv)
    (hrequest : inv.request.extraction? = some e) (w : Workspace) :
    let status := ((run env args : StateM Workspace Report) w).1.status
    status ≠ 2 → ∃ s documents, Ready env inv e w s documents ∧
      let blocks := inv.request.extracted s documents
      (status = 0 ∨ status = 1) ∧
      (∀ e', inv.request = .multi e' →
        (status = 1 ↔ e.failOnEmpty = true ∧ blocks = [])) ∧
      ∀ e' output, inv.request = .single e' output →
        (status = 1 ↔ e.failOnEmpty = true ∧ ∀ v ∈ blocks, v.literal = []) ∧
        (e.failOnEmpty = true → ((status = 1 ↔ blocks = []) ↔
          (∃ v ∈ blocks, v.literal ≠ []) ∨ blocks = [])) := by
  intro status hstatus
  obtain ⟨s, documents, hready⟩ := ready_of_status hread hrequest hstatus
  obtain ⟨hcases, hvacant⟩ := status_eq_one_iff hread hrequest hready hstatus
  refine ⟨s, documents, hready, hcases, fun e' hr => ?_, fun e' output hr => ?_⟩
  · rw [hr] at hvacant ⊢
    exact hvacant.trans (and_congr_right' (routed_eq_nil_iff e'))
  · rw [hr] at hvacant ⊢
    have htext : status = 1 ↔ e.failOnEmpty = true ∧
        ∀ v ∈ (Request.single e' output).extracted s documents, v.literal = [] :=
      hvacant.trans (and_congr_right' (passed_eq_nil_iff e' output))
    refine ⟨htext, fun hfail => ?_⟩
    rw [htext, and_iff_right hfail]
    exact forall_literal_iff_eq_nil

end

/-- A command line that is to tell whether there was anything to extract. -/
def tellingArguments (command : String) : List Text :=
  [command.toList, "--fail-on-empty".toList, "a.md".toList]

/-- An empty block that goes to a file has been extracted. -/
theorem run_status_emptyFile :
    let document := "```file=x\n```\n".toList
    let w := filesAtRoot [("a.md".toList, Text.toBytes document)]
    let e : Extraction := ⟨["a.md".toList], {}, true⟩
    let inv : Invocation := { request := .multi e }
    let answer := (run { directory := ['/'] } (tellingArguments "multi") :
      StateM Workspace Report) w
    CommandLine.read (tellingArguments "multi") = .ok inv ∧
      inv.request.extraction? = some e ∧ answer.1.status ≠ 2 ∧
      answer.1.status = 0 ∧ answer.2.tree.find? ["x".toList] =
        some (.file 0o600 []) := by
  intro document w e inv answer
  have hread : CommandLine.read (tellingArguments "multi") = .ok inv := by rfl
  have hstatus : answer.1.status ≠ 2 := by decide +kernel
  obtain ⟨s, documents, hready, hcases, hfiles, -⟩ := run_status hread rfl w hstatus
  obtain ⟨⟨c, source, hc, rfl⟩, hd⟩ := hready
  have hconfiguration : w.configuration { directory := ['/'] } inv =
      .ok ({}, none) := by decide +kernel
  cases hconfiguration.symm.trans hc
  have hdocuments : w.documents e.files = .ok [document] := by decide +kernel
  cases hdocuments.symm.trans hd
  have hblock : inv.request.extracted (mergeSettings {} {}) [document] ≠ [] := by
    decide +kernel
  have hextracted : answer.1.status ≠ 1 := fun hone =>
    hblock ((hfiles e rfl).1 hone).2
  exact ⟨hread, rfl, hstatus, hcases.resolve_right hextracted, by decide +kernel⟩

/-- An empty block that goes into one text has been extracted too, and the status
says that nothing was. -/
theorem run_status_emptyBlock :
    let document := "```\n```\n".toList
    let w := filesAtRoot [("a.md".toList, Text.toBytes document)]
    let env : Environment := { directory := ['/'] }
    let e : Extraction := ⟨["a.md".toList], {}, true⟩
    let inv : Invocation := { request := .single e ['-'] }
    let s : Settings := ⟨{}, {}⟩
    CommandLine.read (tellingArguments "single") = .ok inv ∧
      Ready env inv e w s [document] ∧
      inv.request.extracted s [document] = [⟨[], []⟩] ∧
      ((run env (tellingArguments "single") : StateM Workspace Report) w).1.status =
        1 := by
  intro document w env e inv s
  have hready : Ready env inv e w s [document] :=
    ⟨⟨{}, none, by decide +kernel, rfl⟩, by decide +kernel⟩
  exact ⟨by rfl, hready, by decide +kernel, by decide +kernel⟩

end Tangle
