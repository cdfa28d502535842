import Mathlib.Algebra.GroupWithZero.Nat
import Mathlib.Data.List.Forall2
import Tangle.Proofs.Delivery

/-!
# Workers on a batch

Documents that are processed independently of each other have workers at them, and
who gets on when is nobody's choice: a schedule says at which document something is
done next, and any schedule can come about (`Pool.run`). What the workers share is
the log, in which their warnings are mixed. The results are not mixed, since each
is put where its document stands in the batch.

The invariant is about one slot at a time (`Pool.Sound`): what it holds and what has
been logged about its document make up what the document comes to by itself. So once
all slots are filled the schedule is forgotten, and what is left to compare is going
through all results with going through them up to the first failure, which are
`Logged.collect` of a list and of a prefix of it (`processInTurn_run`).
-/

namespace Tangle

variable {ε α : Type}

/-! ## Up to the first failure -/

theorem triedInTurn_isPrefix (result : Text → Logged (Except ε α)) (paths : List Text) :
    triedInTurn result paths <+: paths := by
  induction paths with
  | nil => exact List.prefix_rfl
  | cons path rest ih =>
      rw [triedInTurn]
      split
      · exact (List.prefix_cons_inj path).2 List.nil_prefix
      · exact (List.prefix_cons_inj path).2 ih

theorem Logged.collect_warnings (rs : List (Logged (Except ε α))) :
    (collect rs).warnings = rs.flatMap Logged.warnings := by
  induction rs with
  | nil => rfl
  | cons r rs ih => rw [collect, List.flatMap_cons, ih]

/-- What comes behind the first failure does not matter. -/
theorem collect_triedInTurn_value (result : Text → Logged (Except ε α))
    (paths : List Text) :
    (Logged.collect ((triedInTurn result paths).map result)).value =
      (Logged.collect (paths.map result)).value := by
  induction paths with
  | nil => rfl
  | cons path rest ih =>
      rw [triedInTurn, List.map_cons, Logged.collect]
      cases h : (result path).value with
      | error e =>
          rw [List.map_singleton, Logged.collect, h]
      | ok a =>
          rw [List.map_cons, Logged.collect, h]
          simp only [ih]

/-- All results, in order, if every document has one. -/
theorem Logged.collect_value_eq_ok_iff {result : Text → Logged (Except ε α)}
    {paths : List Text} {as : List α} :
    (collect (paths.map result)).value = .ok as ↔
      List.Forall₂ (fun path a => (result path).value = .ok a) paths as := by
  induction paths generalizing as with
  | nil => cases as <;> simp [collect]
  | cons path rest ih =>
      rw [List.map_cons, collect]
      cases hpath : (result path).value with
      | error e => cases as <;> simp [hpath]
      | ok a =>
          cases hrest : (collect (rest.map result)).value with
          | error e =>
              rw [hrest] at ih
              cases as <;> simp [Except.map, hpath, ← ih]
          | ok others =>
              rw [hrest] at ih
              cases as <;> simp [Except.map, hpath, ← ih]

/-- One document fails, and all before it have a result. -/
structure FirstFailure (result : Text → Logged (Except ε α)) (paths before : List Text)
    (path : Text) (after : List Text) (e : ε) : Prop where
  split : paths = before ++ path :: after
  before : ∀ q ∈ before, ∃ a, (result q).value = .ok a
  failure : (result path).value = .error e

/-- Otherwise the failure of the first document that has none. -/
theorem Logged.collect_value_eq_error_iff {result : Text → Logged (Except ε α)}
    {paths : List Text} {e : ε} :
    (collect (paths.map result)).value = .error e ↔
      ∃ before path after, FirstFailure result paths before path after e := by
  induction paths with
  | nil =>
      constructor
      · intro h
        cases h
      · rintro ⟨before, path, after, hsplit, -, -⟩
        exact absurd hsplit.symm
          (List.append_ne_nil_of_right_ne_nil before (List.cons_ne_nil path after))
  | cons path rest ih =>
      rw [List.map_cons, collect]
      cases hpath : (result path).value with
      | error e' =>
          constructor
          · intro h
            cases h
            exact ⟨[], path, rest, rfl, List.forall_mem_nil _, hpath⟩
          · rintro ⟨before, p, after, heq, hbefore, hp⟩
            cases before with
            | nil =>
                cases heq
                cases hpath.symm.trans hp
                rfl
            | cons q before =>
                cases heq
                obtain ⟨a, ha⟩ := hbefore path (List.mem_cons_self ..)
                cases hpath.symm.trans ha
      | ok a =>
          -- the failure is among the rest, and this document comes before it
          have hmap : Except.map (a :: ·) (collect (rest.map result)).value = .error e ↔
              (collect (rest.map result)).value = .error e := by
            cases (collect (rest.map result)).value <;> simp [Except.map]
          refine hmap.trans (ih.trans ⟨?_, ?_⟩)
          · rintro ⟨before, p, after, rfl, hbefore, hp⟩
            exact ⟨path :: before, p, after, rfl,
              List.forall_mem_cons.2 ⟨⟨a, hpath⟩, hbefore⟩, hp⟩
          · rintro ⟨before, p, after, heq, hbefore, hp⟩
            cases before with
            | nil =>
                cases heq
                cases hpath.symm.trans hp
            | cons q before =>
                cases heq
                exact ⟨before, p, after, rfl, (List.forall_mem_cons.1 hbefore).2, hp⟩

/-- Only the documents up to the failure are tried. -/
theorem FirstFailure.triedInTurn_eq {result : Text → Logged (Except ε α)}
    {paths before after : List Text} {path : Text} {e : ε}
    (h : FirstFailure result paths before path after e) :
    triedInTurn result paths = before ++ [path] := by
  obtain ⟨rfl, hbefore, hfailure⟩ := h
  induction before with
  | nil => rw [List.nil_append, triedInTurn, hfailure, List.nil_append]
  | cons q before ih =>
      obtain ⟨⟨a, hq⟩, hbefore⟩ := List.forall_mem_cons.1 hbefore
      rw [List.cons_append, triedInTurn, hq]
      exact congrArg (q :: ·) (ih hbefore)

theorem triedInTurn_eq_self {result : Text → Logged (Except ε α)} {paths : List Text}
    {as : List α} (h : (Logged.collect (paths.map result)).value = .ok as) :
    triedInTurn result paths = paths := by
  rw [Logged.collect_value_eq_ok_iff] at h
  induction h with
  | nil => rfl
  | cons hpath _ ih => rw [triedInTurn, hpath, ih]

/-! ## Workers -/

/-- Where a document of a batch has got to. -/
inductive Slot (ε α : Type) where
  | waiting (path : Text)
  /-- It has been read and extracted; these warnings are still to be logged. -/
  | warning (value : Except ε α) (unsaid : List String)
  | finished (value : Except ε α)

def Slot.value? : Slot ε α → Option (Except ε α)
  | .finished value => some value
  | _ => none

/-- The warnings about the document at one place among those that have been logged. -/
def about (place : Nat) (log : List (Nat × String)) : List String :=
  (log.filter fun entry => entry.1 = place).map Prod.snd

/-- A batch that workers are at. -/
structure Pool (ε α : Type) where
  /-- The documents in the order of the inputs. -/
  slots : List (Slot ε α)
  /-- What has been logged so far, with the place of the document it is about. -/
  log : List (Nat × String)
  workspace : Workspace

namespace Pool

/-- Nothing has been done yet. -/
def start (paths : List Text) (w : Workspace) : Pool ε α := ⟨paths.map .waiting, [], w⟩

/-- The worker at one place does what is next: it reads the document and extracts
from it, or logs a warning, or puts the result in its place. -/
def step (f : Text → StateM Workspace (Logged (Except ε α))) (pool : Pool ε α)
    (place : Nat) : Pool ε α :=
  match pool.slots[place]? with
  | some (.waiting path) =>
    let (r, w) := f path pool.workspace
    { pool with slots := pool.slots.set place (.warning r.value r.warnings), workspace := w }
  | some (.warning value (message :: unsaid)) =>
    { pool with
      slots := pool.slots.set place (.warning value unsaid)
      log := pool.log ++ [(place, message)] }
  | some (.warning value []) =>
    { pool with slots := pool.slots.set place (.finished value) }
  | _ => pool

/-- The workers get on in the order of a schedule of places. -/
def run (f : Text → StateM Workspace (Logged (Except ε α))) (schedule : List Nat)
    (pool : Pool ε α) : Pool ε α := schedule.foldl (step f) pool

/-- What is in place, with the warnings about each document. -/
def results (pool : Pool ε α) : List (Option (Logged (Except ε α))) :=
  pool.slots.mapIdx fun place slot =>
    slot.value?.map fun value => ⟨value, about place pool.log⟩

end Pool

/-- What processing a batch can come to, with the warnings in the order of the inputs:
in turn one thing only, and otherwise what the workers have put in place when they
have all finished, in whatever order. -/
inductive BatchConfig.Yields (c : BatchConfig)
    (f : Text → StateM Workspace (Logged (Except ε α))) (paths : List Text)
    (w : Workspace) : Logged (Except ε (List α)) → Prop
  | inTurn (h : ¬ c.independent paths.length = true) :
      Yields c f paths w (processInTurn f paths w).1
  | independent (h : c.independent paths.length = true) {schedule : List Nat}
      {results : List (Logged (Except ε α))}
      (hrun : (Pool.run f schedule (.start paths w)).results = results.map some) :
      Yields c f paths w (Logged.collect results)

/-! ### What a schedule does not change -/

/-- What a slot holds and what has been said of its document, if the document under
`path` comes to `r`. -/
def Slot.Fits (path : Text) (r : Logged (Except ε α)) (said : List String) :
    Slot ε α → Prop
  | .waiting p => p = path ∧ said = []
  | .warning value unsaid => value = r.value ∧ said ++ unsaid = r.warnings
  | .finished value => value = r.value ∧ said = r.warnings

theorem about_concat_self (place : Nat) (message : String) (log : List (Nat × String)) :
    about place (log ++ [(place, message)]) = about place log ++ [message] := by
  simp [about]

theorem about_concat_of_ne {place other : Nat} (h : place ≠ other) (message : String)
    (log : List (Nat × String)) :
    about other (log ++ [(place, message)]) = about other log := by
  simp [about, h]

namespace Pool

variable {f : Text → StateM Workspace (Logged (Except ε α))}
  {result : Text → Logged (Except ε α)} {paths : List Text} {w : Workspace}
  {pool : Pool ε α}

/-- The workspace is as it was, and every document has got to where it is by what it
comes to. -/
structure Sound (result : Text → Logged (Except ε α)) (paths : List Text) (w : Workspace)
    (pool : Pool ε α) : Prop where
  workspace : pool.workspace = w
  length : pool.slots.length = paths.length
  fits : ∀ place (slot : Slot ε α), pool.slots[place]? = some slot →
    ∃ path, paths[place]? = some path ∧
      slot.Fits path (result path) (about place pool.log)

theorem sound_start (result : Text → Logged (Except ε α)) (paths : List Text)
    (w : Workspace) : Sound result paths w (start paths w) where
  workspace := rfl
  length := List.length_map ..
  fits := by
    intro place slot hslot
    rw [start, List.getElem?_map, Option.map_eq_some_iff] at hslot
    obtain ⟨path, hpath, rfl⟩ := hslot
    exact ⟨path, hpath, rfl, rfl⟩

/-- One slot changes and what is said of its document. -/
theorem Sound.set (h : Sound result paths w pool) {place : Nat} {path : Text}
    (hpath : paths[place]? = some path) {slot : Slot ε α} {log : List (Nat × String)}
    (hfits : slot.Fits path (result path) (about place log))
    (hlog : ∀ other, place ≠ other → about other log = about other pool.log) :
    Sound result paths w ⟨pool.slots.set place slot, log, w⟩ where
  workspace := rfl
  length := (List.length_set ..).trans h.length
  fits := by
    intro other slot' hslot
    by_cases hother : place = other
    · subst hother
      rw [List.getElem?_set_self', Option.map_eq_map, Option.map_eq_some_iff] at hslot
      obtain ⟨_, _, rfl⟩ := hslot
      exact ⟨path, hpath, hfits⟩
    · rw [List.getElem?_set_ne hother] at hslot
      rw [hlog other hother]
      exact h.fits other slot' hslot

theorem Sound.step (hf : ∀ path, f path w = (result path, w))
    (h : Sound result paths w pool) (place : Nat) :
    Sound result paths w (pool.step f place) := by
  unfold Pool.step
  split
  · next path hslot =>
      -- the workspace is still the one at the start, so `path` comes to its result
      obtain ⟨p, hp, rfl, hsaid⟩ := h.fits place _ hslot
      rw [h.workspace, hf]
      exact h.set hp ⟨rfl, by rw [hsaid]; rfl⟩ fun _ _ => rfl
  · next value message unsaid hslot =>
      obtain ⟨p, hp, hvalue, hsaid⟩ := h.fits place _ hslot
      rw [h.workspace]
      refine h.set hp ⟨hvalue, ?_⟩ fun other hother => about_concat_of_ne hother ..
      rw [about_concat_self, List.append_assoc]
      exact hsaid
  · next value hslot =>
      obtain ⟨p, hp, hvalue, hsaid⟩ := h.fits place _ hslot
      rw [h.workspace]
      exact h.set hp ⟨hvalue, (List.append_nil _).symm.trans hsaid⟩ fun _ _ => rfl
  · exact h

theorem Sound.run (hf : ∀ path, f path w = (result path, w))
    (h : Sound result paths w pool) (schedule : List Nat) :
    Sound result paths w (pool.run f schedule) := by
  induction schedule generalizing pool with
  | nil => exact h
  | cons place schedule ih => exact ih (h.step hf place)

/-- Whatever has been put in its place is what the document there comes to. -/
theorem Sound.result_in_place (h : Sound result paths w pool) {place : Nat}
    {slot : Slot ε α} (hslot : pool.slots[place]? = some slot) :
    ∃ path, paths[place]? = some path ∧
      pool.results[place]? = some (slot.value?.map fun _ => result path) := by
  obtain ⟨path, hpath, hfits⟩ := h.fits place slot hslot
  refine ⟨path, hpath, ?_⟩
  rw [results, List.getElem?_mapIdx, hslot, Option.map_some]
  cases slot with
  | waiting p => rfl
  | warning value unsaid => rfl
  | finished value =>
      obtain ⟨rfl, hsaid⟩ := hfits
      rw [hsaid]
      rfl

/-- Nothing is left to do. -/
def Finished (pool : Pool ε α) : Prop := ∀ slot ∈ pool.slots, slot.value?.isSome

theorem Sound.results_of_finished (h : Sound result paths w pool)
    (hfinished : pool.Finished) : pool.results = (paths.map result).map some := by
  refine List.ext_getElem? fun place => ?_
  rw [List.getElem?_map, List.getElem?_map]
  cases hslot : pool.slots[place]? with
  | none =>
      have hnone : paths[place]? = none := by
        rw [List.getElem?_eq_none_iff] at hslot ⊢
        rwa [← h.length]
      rw [results, List.getElem?_mapIdx, hslot, hnone]
      rfl
  | some slot =>
      obtain ⟨path, hpath, hresult⟩ := h.result_in_place hslot
      obtain ⟨value, hvalue⟩ :=
        Option.isSome_iff_exists.1 (hfinished slot (List.mem_of_getElem? hslot))
      rw [hresult, hpath, hvalue]
      rfl

theorem Sound.finished_of_results (h : Sound result paths w pool)
    {rs : List (Logged (Except ε α))} (hrs : pool.results = rs.map some) :
    pool.Finished := by
  intro slot hmem
  obtain ⟨place, hslot⟩ := List.getElem?_of_mem hmem
  obtain ⟨path, -, hresult⟩ := h.result_in_place hslot
  rw [hrs, List.getElem?_map, Option.map_eq_some_iff] at hresult
  obtain ⟨r, -, hr⟩ := hresult
  cases hvalue : slot.value? with
  | none => rw [hvalue] at hr; cases hr
  | some value => rfl

/-- The schedule does not show in the results. -/
theorem Sound.results_eq (h : Sound result paths w pool)
    {rs : List (Logged (Except ε α))} (hrs : pool.results = rs.map some) :
    rs = paths.map result :=
  List.map_injective_iff.2 (fun _ _ => Option.some.inj)
    (hrs.symm.trans (h.results_of_finished (h.finished_of_results hrs)))

end Pool

/-! ### Getting to the end -/

/-- How many steps are left at a slot. -/
def Slot.left (result : Text → Logged (Except ε α)) : Slot ε α → Nat
  | .waiting path => (result path).warnings.length + 2
  | .warning _ unsaid => unsaid.length + 1
  | .finished _ => 0

theorem sum_map_set {β : Type} (g : β → Nat) {bs : List β} {place : Nat} {b : β}
    (h : bs[place]? = some b) (b' : β) :
    ((bs.set place b').map g).sum + g b = (bs.map g).sum + g b' := by
  induction bs generalizing place with
  | nil => cases h
  | cons c bs ih =>
      cases place with
      | zero =>
          cases h
          simp only [List.set_cons_zero, List.map_cons, List.sum_cons]
          omega
      | succ place =>
          have hrest := ih (List.getElem?_cons_succ.symm.trans h)
          simp only [List.set_cons_succ, List.map_cons, List.sum_cons]
          omega

namespace Pool

variable {f : Text → StateM Workspace (Logged (Except ε α))}
  {result : Text → Logged (Except ε α)} {paths : List Text} {w : Workspace}
  {pool : Pool ε α}

/-- How many steps are left. -/
def left (result : Text → Logged (Except ε α)) (pool : Pool ε α) : Nat :=
  (pool.slots.map (Slot.left result)).sum

/-- A step where something is left to do does a part of it. -/
theorem left_step (hf : ∀ path, f path w = (result path, w)) (hw : pool.workspace = w)
    {place : Nat} {slot : Slot ε α} (hslot : pool.slots[place]? = some slot)
    (hleft : slot.left result ≠ 0) :
    (pool.step f place).left result < pool.left result := by
  cases slot with
  | waiting path =>
      have hsum := sum_map_set (Slot.left result) hslot
        (.warning (result path).value (result path).warnings)
      simp only [step, hslot, hw, hf, left]
      simp only [Slot.left] at hsum ⊢
      omega
  | warning value unsaid =>
      cases unsaid with
      | nil =>
          have hsum := sum_map_set (Slot.left result) hslot (.finished value)
          simp only [step, hslot, left]
          simp only [Slot.left, List.length_nil] at hsum ⊢
          omega
      | cons message unsaid =>
          have hsum := sum_map_set (Slot.left result) hslot (.warning value unsaid)
          simp only [step, hslot, left]
          simp only [Slot.left, List.length_cons] at hsum ⊢
          omega
  | finished value => exact absurd rfl hleft

theorem exists_left_of_not_finished (h : ¬ pool.Finished) :
    ∃ (place : Nat) (slot : Slot ε α), pool.slots[place]? = some slot ∧
      slot.left result ≠ 0 := by
  rw [Finished] at h
  push Not at h
  obtain ⟨slot, hmem, hvalue⟩ := h
  obtain ⟨place, hslot⟩ := List.getElem?_of_mem hmem
  refine ⟨place, slot, hslot, ?_⟩
  cases slot with
  | waiting path => exact nofun
  | warning value unsaid => exact nofun
  | finished value => exact absurd rfl hvalue

/-- However far the workers have got, they can come to an end. -/
theorem Sound.exists_finish (hf : ∀ path, f path w = (result path, w))
    (h : Sound result paths w pool) : ∃ schedule, (pool.run f schedule).Finished := by
  -- on what is left, which any worker who can get on makes less
  induction hn : pool.left result using Nat.strong_induction_on generalizing pool with
  | h n ih =>
      by_cases hfinished : pool.Finished
      · exact ⟨[], hfinished⟩
      · obtain ⟨place, slot, hslot, hleft⟩ := exists_left_of_not_finished hfinished
        have hless := left_step hf h.workspace hslot hleft
        obtain ⟨schedule, hschedule⟩ := ih _ (hn ▸ hless) (h.step hf place) rfl
        exact ⟨place :: schedule, hschedule⟩

end Pool

/-! ## Together and in turn -/

section

variable {f : Text → StateM Workspace (Logged (Except ε α))}
  {result : Text → Logged (Except ε α)} {paths : List Text} {w : Workspace}

/-- There is a schedule for every batch, and all of them come to the same. -/
theorem BatchConfig.yields_iff (hf : ∀ path, f path w = (result path, w))
    (c : BatchConfig) (outcome : Logged (Except ε (List α))) :
    c.Yields f paths w outcome ↔ outcome = (process c f paths w).1 := by
  have hstart : Pool.Sound result paths w (.start paths w) := Pool.sound_start ..
  rw [process]
  split
  · next hmany =>
      rw [processIndependently_run hf]
      constructor
      · intro h
        cases h with
        | inTurn hfew => exact absurd hmany hfew
        | independent _ hrun => rw [(hstart.run hf _).results_eq hrun]
      · rintro rfl
        obtain ⟨schedule, hfinished⟩ := hstart.exists_finish hf
        exact .independent hmany ((hstart.run hf schedule).results_of_finished hfinished)
  · next hfew =>
      constructor
      · intro h
        cases h with
        | inTurn => rfl
        | independent hmany => exact absurd hmany hfew
      · rintro rfl
        exact .inTurn hfew

theorem process_value (hf : ∀ path, f path w = (result path, w)) (c : BatchConfig) :
    (process c f paths w).1.value = (Logged.collect (paths.map result)).value := by
  rw [process]
  split
  · rw [processIndependently_run hf]
  · rw [processInTurn_run hf]
    exact collect_triedInTurn_value result paths

theorem process_warnings (hf : ∀ path, f path w = (result path, w)) (c : BatchConfig) :
    (process c f paths w).1.warnings =
      (if c.independent paths.length then paths else triedInTurn result paths).flatMap
        fun path => (result path).warnings := by
  rw [process]
  split
  · rw [processIndependently_run hf, Logged.collect_warnings, List.flatMap_map]
  · rw [processInTurn_run hf, Logged.collect_warnings, List.flatMap_map]

theorem process_warnings_inTurn (hf : ∀ path, f path w = (result path, w))
    (least : Nat) : (process ⟨false, least⟩ f paths w).1.warnings =
      (triedInTurn result paths).flatMap fun path => (result path).warnings := by
  rw [process_warnings hf, if_neg nofun]

/-- Whatever is tried besides is warned about afterwards. -/
theorem warnings_inTurn_isPrefix (hf : ∀ path, f path w = (result path, w))
    (least : Nat) (c : BatchConfig) :
    (process ⟨false, least⟩ f paths w).1.warnings <+: (process c f paths w).1.warnings := by
  rw [process_warnings_inTurn hf, process_warnings hf]
  split
  · obtain ⟨untried, hsplit⟩ := triedInTurn_isPrefix result paths
    refine ⟨untried.flatMap fun path => (result path).warnings, ?_⟩
    rw [← List.flatMap_append, hsplit]
  · exact List.prefix_rfl

end

/-- Processing documents together and in turn agree.

Documents that are processed independently come to one and the same however their
workers get on, and this is what `process` makes of them. Each result is in the place
of its document, with the warnings about it. From whatever number of documents on it
is done, the outcome is the one that comes of trying them in turn: all results in the
order of the inputs if every document has one, and otherwise the failure of the first
that has none. If there are only results then the warnings are the same. If not then
those that come up in turn are about the documents up to the failure, and they are
what the warnings of all documents begin with. -/
theorem process_agrees {f : Text → StateM Workspace (Logged (Except ε α))}
    (hf : ∀ path, OnlyReads (f path)) (paths : List Text) (w : Workspace) :
    let result := fun path => (f path w).1
    let warned := fun tried : List Text => tried.flatMap fun path => (result path).warnings
    (∀ (c : BatchConfig) outcome,
      c.Yields f paths w outcome ↔ outcome = (process c f paths w).1) ∧
    (∀ schedule results, (Pool.run f schedule (.start paths w)).results = results.map some →
      results = paths.map result) ∧
    ∀ minFileCount least together inTurn,
      BatchConfig.Yields ⟨true, minFileCount⟩ f paths w together →
      BatchConfig.Yields ⟨false, least⟩ f paths w inTurn →
      together.value = inTurn.value ∧
      (∀ as, together.value = .ok as ↔
        List.Forall₂ (fun path a => (result path).value = .ok a) paths as) ∧
      (∀ e, together.value = .error e ↔
        ∃ before path after, FirstFailure result paths before path after e) ∧
      (minFileCount ≤ paths.length → together.warnings = warned paths) ∧
      (∀ as, together.value = .ok as →
        inTurn.warnings = warned paths ∧ together.warnings = inTurn.warnings) ∧
      ∀ before path after e, FirstFailure result paths before path after e →
        inTurn.warnings = warned (before ++ [path]) ∧
        inTurn.warnings <+: together.warnings := by
  intro result warned
  have hrun : ∀ path, f path w = (result path, w) := fun path => Prod.ext rfl (hf path w)
  have hyields : ∀ (c : BatchConfig) outcome,
      c.Yields f paths w outcome ↔ outcome = (process c f paths w).1 :=
    fun c => c.yields_iff hrun
  refine ⟨hyields, fun schedule results hresults =>
    ((Pool.sound_start result paths w).run hrun schedule).results_eq hresults, ?_⟩
  intro minFileCount least together inTurn htogether hinTurn
  rw [hyields] at htogether hinTurn
  subst htogether hinTurn
  have hinTurn : (process ⟨false, least⟩ f paths w).1.warnings =
      warned (triedInTurn result paths) := process_warnings_inTurn hrun least
  refine ⟨(process_value hrun _).trans (process_value hrun _).symm, fun as => ?_,
    fun e => ?_, fun hmany => ?_, fun as has => ?_, fun before path after e hfirst => ?_⟩
  · rw [process_value hrun]
    exact Logged.collect_value_eq_ok_iff
  · rw [process_value hrun]
    exact Logged.collect_value_eq_error_iff
  · rw [process_warnings hrun, if_pos]
    exact decide_eq_true hmany
  · rw [process_value hrun] at has
    have htried := triedInTurn_eq_self has
    rw [htried] at hinTurn
    refine ⟨hinTurn, ?_⟩
    rw [hinTurn, process_warnings hrun, htried, ite_self]
  · rw [hfirst.triedInTurn_eq] at hinTurn
    exact ⟨hinTurn, warnings_inTurn_isPrefix hrun least _⟩

deriving instance DecidableEq for Logged

/-- The last of three documents is through before the others are begun, and the one
in the middle is missing. -/
theorem process_agrees_lastFirst :
    let path := fun c : Char => [c, '.', 'm', 'd']
    let commented : Text := "<!-- -->\n".toList
    let o : ExtractOptions := { walker := { maxDepth := some 0 } }
    let w := filesAtRoot [(path 'a', commented.toBytes), (path 'c', commented.toBytes)]
    let f : Text → StateM Workspace (Logged (Except ReadError Text)) :=
      extractFile o.single
    let paths := [path 'a', path 'b', path 'c']
    let missing : ReadError := ⟨path 'b', .notFound⟩
    let results := [⟨.ok [], [tooDeepMessage 0]⟩, ⟨.error missing, []⟩,
      ⟨.ok [], [tooDeepMessage 0]⟩]
    let together := Logged.collect results
    let inTurn := (process ⟨false, 2⟩ f paths w).1
    (∀ path, OnlyReads (f path)) ∧
      (Pool.run f [2, 2, 2, 0, 1, 0, 1, 0] (.start paths w)).results = results.map some ∧
      BatchConfig.Yields ⟨true, 2⟩ f paths w together ∧
      BatchConfig.Yields ⟨false, 2⟩ f paths w inTurn ∧
      FirstFailure (fun path => (f path w).1) paths [path 'a'] (path 'b') [path 'c']
        missing ∧
      together.value = .error missing ∧ inTurn.value = .error missing ∧
      inTurn.warnings = [tooDeepMessage 0] ∧
      together.warnings = [tooDeepMessage 0, tooDeepMessage 0] ∧
      inTurn.warnings <+: together.warnings := by
  intro path commented o w f paths missing results together inTurn
  have hf : ∀ path, OnlyReads (f path) := OnlyReads.extractFile o.single
  obtain ⟨hyields, -, hagree⟩ := process_agrees hf paths w
  have hrun : (Pool.run f [2, 2, 2, 0, 1, 0, 1, 0] (.start paths w)).results =
      results.map some := by decide +kernel
  have htogether : BatchConfig.Yields ⟨true, 2⟩ f paths w together :=
    .independent rfl hrun
  have hinTurn : BatchConfig.Yields ⟨false, 2⟩ f paths w inTurn := (hyields _ _).2 rfl
  have hfirst : FirstFailure (fun path => (f path w).1) paths [path 'a'] (path 'b')
      [path 'c'] missing := by
    refine ⟨rfl, fun q hq => ?_, by decide +kernel⟩
    rw [List.mem_singleton.1 hq]
    exact ⟨[], by decide +kernel⟩
  obtain ⟨hvalue, -, herror, hall, -, hfailure⟩ := hagree 2 2 _ _ htogether hinTurn
  have hmissing : together.value = .error missing := (herror _).2 ⟨_, _, _, hfirst⟩
  obtain ⟨hwarned, hprefix⟩ := hfailure _ _ _ _ hfirst
  exact ⟨hf, hrun, htogether, hinTurn, hfirst, hmissing, hvalue ▸ hmissing,
    hwarned.trans (by decide +kernel), (hall (by decide)).trans (by decide +kernel),
    hprefix⟩

end Tangle
