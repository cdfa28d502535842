import Tangle.Program
import Tangle.Proofs.Grouping

/-!
# What a run reads

Looking for a configuration, reading it and reading the documents leave the
workspace as it is (`OnlyReads`). So every document is read as it was before the
run, in whatever order and however many of them fail, and what comes of a batch
is what each document comes to by itself (`extractAll_run`).
-/

namespace Tangle

open CommandLine (Invocation Extraction)

/-! ## Looking without touching -/

/-- Leaves every workspace as it is. -/
def OnlyReads {α : Type} (x : StateM Workspace α) : Prop := ∀ w, (x w).2 = w

namespace OnlyReads

theorem pure {α : Type} (a : α) : OnlyReads (Pure.pure a : StateM Workspace α) :=
  fun _ => rfl

theorem bind {α β : Type} {x : StateM Workspace α} {f : α → StateM Workspace β}
    (hx : OnlyReads x) (hf : ∀ a, OnlyReads (f a)) : OnlyReads (x >>= f) :=
  fun w => (hf _ _).trans (hx w)

theorem read (p : Text) :
    OnlyReads (FileAccess.read p : StateM Workspace _) := fun _ => rfl

theorem holds (p : Text) :
    OnlyReads (FileAccess.holds p : StateM Workspace _) := fun _ => rfl

theorem holdsFile (p : Text) :
    OnlyReads (FileAccess.holdsFile p : StateM Workspace _) := fun _ => rfl

theorem firstFile (paths : List Text) :
    OnlyReads (Tangle.firstFile paths : StateM Workspace _) := by
  induction paths with
  | nil => exact pure none
  | cons p rest ih =>
      rw [Tangle.firstFile]
      refine (holdsFile p).bind fun there => ?_
      split
      · exact pure (some p)
      · exact ih

theorem discoverWithin (levels : Nat) (directory : Text) :
    OnlyReads (Tangle.discoverWithin levels directory : StateM Workspace _) := by
  induction levels generalizing directory with
  | zero => exact pure none
  | succ n ih =>
      rw [Tangle.discoverWithin]
      refine (firstFile _).bind fun found => ?_
      split
      · exact pure _
      · refine (holds _).bind fun boundary => ?_
        split
        · exact pure none
        · split
          · exact ih _
          · exact pure none

theorem readConfig (path : Text) :
    OnlyReads (Tangle.readConfig path : StateM Workspace _) := by
  refine (read path).bind fun r => ?_
  split
  · exact pure _
  · split <;> exact pure _

theorem loadConfig (explicit : Option Text) (ignore : Bool) (start : Text) :
    OnlyReads (Tangle.loadConfig explicit ignore start : StateM Workspace _) := by
  unfold Tangle.loadConfig
  split
  · exact (readConfig _).bind fun _ => pure _
  · split
    · exact pure _
    · refine (discoverWithin _ _).bind fun found => ?_
      split
      · exact (readConfig _).bind fun _ => pure _
      · exact pure _

end OnlyReads

/-! ## What there is to read -/

namespace Workspace

/-- The text of the document under a path. -/
def document (w : Workspace) (path : Text) : Except ReadError Text :=
  match w.tree.read w.cwd path with
  | .ok bytes => .ok (Text.ofBytesLossy bytes)
  | .error cause => .error ⟨path, cause⟩

/-- The texts of the documents under all paths, or why the first that cannot be
read cannot be read. -/
def documents (w : Workspace) : List Text → Except ReadError (List Text)
  | [] => .ok []
  | path :: rest =>
    match w.document path with
    | .error e => .error e
    | .ok document => (w.documents rest).map (document :: ·)

/-- The configuration that a command line asks for, and its file if it has
one. -/
def configuration (w : Workspace) (env : Environment) (inv : Invocation) :
    Except ConfigError (Config × Option Text) :=
  ((loadConfig inv.config inv.noConfig env.directory : StateM Workspace _) w).1

/-- What an extraction makes of the document under a path. -/
def extracted {α : Type} (w : Workspace) (extract : Text → Logged α)
    (path : Text) : Logged (Except ReadError α) :=
  match w.document path with
  | .error e => ⟨.error e, []⟩
  | .ok document => ⟨.ok (extract document).value, (extract document).warnings⟩

variable {w : Workspace}

theorem documents_append (paths more : List Text) :
    w.documents (paths ++ more) = match w.documents paths with
      | .error e => .error e
      | .ok front => (w.documents more).map (front ++ ·) := by
  induction paths with
  | nil => cases h : w.documents more <;> simp [documents, h, Except.map]
  | cons path paths ih =>
      rw [List.cons_append, documents, documents, ih]
      cases w.document path with
      | error e => rfl
      | ok d =>
          cases w.documents paths with
          | error e => rfl
          | ok front => cases w.documents more <;> rfl

theorem documents_cons_eq_ok_iff {path : Text} {paths documents : List Text} :
    w.documents (path :: paths) = .ok documents ↔
      ∃ bytes rest, w.tree.read w.cwd path = .ok bytes ∧
        w.documents paths = .ok rest ∧
        documents = Text.ofBytesLossy bytes :: rest := by
  rw [Workspace.documents, document]
  cases w.tree.read w.cwd path with
  | error cause => simp
  | ok bytes =>
      cases w.documents paths with
      | error e => simp [Except.map]
      | ok rest => simp [Except.map, eq_comm]

theorem exists_documents_iff {paths : List Text} :
    (∃ documents, w.documents paths = .ok documents) ↔
      ∀ q ∈ paths, ∃ bytes, w.tree.read w.cwd q = .ok bytes := by
  induction paths with
  | nil => exact ⟨fun _ => nofun, fun _ => ⟨[], rfl⟩⟩
  | cons path paths ih =>
      rw [List.forall_mem_cons, ← ih]
      simp only [documents_cons_eq_ok_iff]
      constructor
      · rintro ⟨_, bytes, rest, hpath, hrest, rfl⟩
        exact ⟨⟨bytes, hpath⟩, rest, hrest⟩
      · rintro ⟨⟨bytes, hpath⟩, rest, hrest⟩
        exact ⟨_, bytes, rest, hpath, hrest, rfl⟩

end Workspace

/-! ## What a batch comes to -/

section

variable {w : Workspace}

theorem extractFile_run {α : Type} (extract : Text → Logged α) (path : Text) :
    (extractFile extract path : StateM Workspace _) w =
      (w.extracted extract path, w) := by
  unfold extractFile readDocument Workspace.extracted Workspace.document
  show ((FileAccess.read path >>= _ : StateM Workspace _) >>= _) w = _
  cases h : w.tree.read w.cwd path <;>
    simp only [bind, StateT.bind, FileAccess.read, h] <;> rfl

theorem OnlyReads.extractFile {α : Type} (extract : Text → Logged α) (path : Text) :
    OnlyReads (Tangle.extractFile extract path : StateM Workspace _) :=
  fun _ => congrArg Prod.snd (extractFile_run extract path)

theorem mapM_run {α β : Type} {f : α → StateM Workspace β} {g : α → β}
    (hf : ∀ a, f a w = (g a, w)) (as : List α) :
    as.mapM f w = (as.map g, w) := by
  induction as with
  | nil => rfl
  | cons a as ih =>
      rw [List.mapM_cons]
      show (f a >>= fun b => as.mapM f >>= fun bs => pure (b :: bs)) w = _
      simp only [bind, StateT.bind, hf, ih]
      rfl

theorem processIndependently_run {α ε : Type}
    {f : Text → StateM Workspace (Logged (Except ε α))}
    {g : Text → Logged (Except ε α)} (hf : ∀ p, f p w = (g p, w))
    (paths : List Text) :
    processIndependently f paths w = (Logged.collect (paths.map g), w) := by
  rw [processIndependently]
  show (paths.mapM f >>= fun rs => pure (Logged.collect rs)) w = _
  simp only [bind, StateT.bind, mapM_run hf]
  rfl

/-- The paths that are tried if the first failure ends it all. -/
def triedInTurn {α ε : Type} (result : Text → Logged (Except ε α)) :
    List Text → List Text
  | [] => []
  | path :: rest =>
    match (result path).value with
    | .error _ => [path]
    | .ok _ => path :: triedInTurn result rest

theorem processInTurn_run {α ε : Type}
    {f : Text → StateM Workspace (Logged (Except ε α))}
    {g : Text → Logged (Except ε α)} (hf : ∀ p, f p w = (g p, w))
    (paths : List Text) :
    processInTurn f paths w = (Logged.collect ((triedInTurn g paths).map g), w) := by
  induction paths with
  | nil => rfl
  | cons path rest ih =>
      rw [processInTurn]
      show (f path >>= _) w = _
      rw [triedInTurn]
      cases h : (g path).value with
      | error e =>
          simp only [bind, StateT.bind, hf, h, List.map_singleton, Logged.collect,
            List.append_nil]
          rfl
      | ok a =>
          simp only [bind, StateT.bind, hf, h, ih, List.map_cons, Logged.collect]
          rfl

/-- With the usual configuration a batch comes to what its members come to, one
by one. A single document is all that is ever processed in turn, and then there
is none left that a failure could leave out. -/
theorem process_run {α ε : Type}
    {f : Text → StateM Workspace (Logged (Except ε α))}
    {g : Text → Logged (Except ε α)} (hf : ∀ p, f p w = (g p, w))
    (paths : List Text) :
    process {} f paths w = (Logged.collect (paths.map g), w) := by
  match paths with
  | [] => rfl
  | [p] =>
      have htried : triedInTurn g [p] = [p] := by
        rw [triedInTurn]
        cases (g p).value <;> rfl
      have hrun := processInTurn_run hf [p]
      rw [htried] at hrun
      exact hrun
  | p :: q :: rest =>
      have hmany : BatchConfig.independent {} (p :: q :: rest).length = true := by
        simp [BatchConfig.independent]
      rw [process, if_pos hmany, processIndependently_run hf]

theorem collect_extracted_value {α : Type} (extract : Text → Logged α)
    (paths : List Text) :
    (Logged.collect (paths.map (w.extracted extract))).value =
      (w.documents paths).map (List.map fun d => (extract d).value) := by
  induction paths with
  | nil => rfl
  | cons path paths ih =>
      rw [List.map_cons, Logged.collect, Workspace.documents,
        Workspace.extracted]
      cases w.document path with
      | error e => rfl
      | ok d =>
          dsimp only
          rw [ih]
          cases w.documents paths <;> rfl

theorem collect_extracted_warnings {α : Type} {extract : Text → Logged α}
    {paths documents : List Text} (h : w.documents paths = .ok documents) :
    (Logged.collect (paths.map (w.extracted extract))).warnings =
      documents.flatMap fun d => (extract d).warnings := by
  induction paths generalizing documents with
  | nil =>
      cases h
      rfl
  | cons path paths ih =>
      rw [Workspace.documents] at h
      rw [List.map_cons, Logged.collect, Workspace.extracted]
      cases hd : w.document path with
      | error e => rw [hd] at h; cases h
      | ok d =>
          rw [hd] at h
          cases hrest : w.documents paths with
          | error e => rw [hrest] at h; cases h
          | ok rest =>
              rw [hrest] at h
              cases h
              dsimp only
              rw [ih hrest, List.flatMap_cons]

theorem resolveSettings_run (env : Environment) (inv : Invocation)
    (flags : FilterFlags) :
    (resolveSettings env inv flags : StateM Workspace _) w =
      ((w.configuration env inv).mapError Failure.config |>.map
        fun c => mergeSettings c.1 flags, w) := by
  have hw := OnlyReads.loadConfig inv.config inv.noConfig env.directory w
  unfold resolveSettings Workspace.configuration
  cases h : (loadConfig inv.config inv.noConfig env.directory :
      StateM Workspace _) w with
  | mk r w₁ =>
      rw [h] at hw
      subst hw
      cases r <;> simp only [bind, StateT.bind, h] <;> rfl

section

variable {α : Type} {env : Environment} {inv : Invocation} {e : Extraction}

theorem extractAll_run (extract : ExtractOptions → Text → Logged α) {c : Config}
    {source : Option Text} (hc : w.configuration env inv = .ok (c, source)) :
    let s := mergeSettings c e.flags
    let r := Logged.collect (e.files.map (w.extracted (extract s.options)))
    (extractAll env inv e extract : StateM Workspace _) w =
      (⟨(r.value.mapError Failure.read).map (s, ·), r.warnings⟩, w) := by
  intro s r
  have hbatch : (process {} (extractFile (extract s.options)) e.files :
      StateM Workspace _) w = (r, w) :=
    process_run (fun p => extractFile_run _ p) e.files
  unfold extractAll
  simp only [bind, StateT.bind, resolveSettings_run, hc, Except.mapError,
    Except.map]
  rw [hbatch]
  dsimp only
  cases r.value <;> rfl

theorem extractAll_of_no_configuration
    (extract : ExtractOptions → Text → Logged α) {cause : ConfigError}
    (hc : w.configuration env inv = .error cause) :
    (extractAll env inv e extract : StateM Workspace _) w =
      (⟨.error (.config cause), []⟩, w) := by
  unfold extractAll
  simp only [bind, StateT.bind, resolveSettings_run, hc, Except.mapError,
    Except.map]
  rfl

theorem extractAll_of_unreadable (extract : ExtractOptions → Text → Logged α)
    {c : Config} {source : Option Text} {error : ReadError}
    (hc : w.configuration env inv = .ok (c, source))
    (hd : w.documents e.files = .error error) :
    ∃ warnings, (extractAll env inv e extract : StateM Workspace _) w =
      (⟨.error (.read error), warnings⟩, w) := by
  have hrun := extractAll_run (e := e) extract hc
  dsimp only at hrun
  rw [collect_extracted_value, hd] at hrun
  exact ⟨_, hrun⟩

/-- A command has all that it reads: its settings and its documents. -/
structure Ready (env : Environment) (inv : Invocation) (e : Extraction)
    (w : Workspace) (s : Settings) (documents : List Text) : Prop where
  configured : ∃ c source, w.configuration env inv = .ok (c, source) ∧
    s = mergeSettings c e.flags
  read : w.documents e.files = .ok documents

theorem extractAll_of_ready (extract : ExtractOptions → Text → Logged α)
    {s : Settings} {documents : List Text} (h : Ready env inv e w s documents) :
    (extractAll env inv e extract : StateM Workspace _) w =
      (⟨.ok (s, documents.map fun d => (extract s.options d).value),
        documents.flatMap fun d => (extract s.options d).warnings⟩, w) := by
  obtain ⟨⟨c, source, hc, rfl⟩, hd⟩ := h
  rw [extractAll_run extract hc, collect_extracted_value,
    collect_extracted_warnings hd, hd]
  rfl

end

end

end Tangle
