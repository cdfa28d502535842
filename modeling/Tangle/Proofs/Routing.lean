import Mathlib.Algebra.GroupWithZero.Nat
import Tangle.Proofs.Grouping
import Tangle.Text.Utf8

/-!
# One text or a text for each file

The two extractions look at different tags. A block goes into the single text if
its tags pass, all of them. It goes to a file if the last of its tags that names a
file names one in earnest, and if the tags that name no file pass.

A filter that asks for no file tag cannot tell the difference, because a plain tag
is among all tags exactly if it is among the plain ones
(`TagFilter.accepts_plainTags`). So the files get what the single text gets,
grouped by where each block is to go (`single_multi_agree`). What grouping means
is said without a map: every destination once, where it is first met, and under it
the texts of its blocks (`groupedByDestination`).
-/

namespace Tangle

/-! ## Destinations -/

theorem filePath?_eq_some_iff {tag path : Text} :
    filePath? tag = some path ↔ tag = filePrefix ++ path :=
  Text.dropPrefix?_eq_some_iff

theorem filePath?_eq_none_iff {tag : Text} :
    filePath? tag = none ↔ ¬ filePrefix <+: tag := by
  constructor
  · rintro h ⟨path, rfl⟩
    rw [filePath?_eq_some_iff.2 rfl] at h
    cases h
  · intro h
    cases hpath : filePath? tag with
    | none => rfl
    | some path => exact absurd ⟨path, (filePath?_eq_some_iff.1 hpath).symm⟩ h

/-- The last of the tags that name a file names this one. -/
def NamesLast (path : Text) (tags : List Text) : Prop :=
  ∃ front behind, tags = front ++ (filePrefix ++ path) :: behind ∧
    ∀ tag ∈ behind, ¬ filePrefix <+: tag

theorem destination?_eq_some_iff {tags : List Text} {path : Text} :
    destination? tags = some path ↔ NamesLast path tags ∧ path ≠ [] := by
  rw [destination?, Option.filter_eq_some_iff, List.getLast?_filterMap,
    List.findSome?_eq_some_iff]
  refine and_congr ?_ (by simp)
  -- the last tag that names a file is the first one from behind
  constructor
  · rintro ⟨behind, tag, front, htags, hpath, hbehind⟩
    refine ⟨front.reverse, behind.reverse, ?_, fun t ht => ?_⟩
    · rw [← filePath?_eq_some_iff.1 hpath, ← List.reverse_reverse tags, htags]
      simp
    · exact filePath?_eq_none_iff.1 (hbehind t (List.mem_reverse.1 ht))
  · rintro ⟨front, behind, rfl, hbehind⟩
    refine ⟨behind.reverse, _, front.reverse, by simp,
      filePath?_eq_some_iff.2 rfl, fun t ht => ?_⟩
    exact filePath?_eq_none_iff.2 (hbehind t (List.mem_reverse.1 ht))

/-- Where a block goes that is accepted, and what it brings there. -/
def Visit.route? (v : Visit) : Option (Text × Text) :=
  (destination? v.tags).map fun path => (path, v.literal)

theorem TagFilter.route?_eq (f : TagFilter) (v : Visit) :
    f.route? v = if f.accepts (plainTags v.tags) then v.route? else none := by
  rw [TagFilter.route?, Visit.route?]
  cases destination? v.tags with
  | none => exact (ite_self none).symm
  | some path => rfl

theorem TagFilter.filterMap_route? (f : TagFilter) (visited : List Visit) :
    visited.filterMap f.route? =
      (visited.filter fun v => f.accepts (plainTags v.tags)).filterMap
        Visit.route? := by
  rw [List.filterMap_filter]
  exact congrArg (fun route => visited.filterMap route) (funext f.route?_eq)

/-! ## Grouping -/

/-- The texts of blocks under their destinations: every destination where it is
first met, and under it the texts of its blocks in order. -/
def groupedByDestination (blocks : List Visit) : List (Text × Text) :=
  (blocks.filterMap fun v => destination? v.tags).eraseDups.map fun path =>
    (path, (blocks.filter fun v => destination? v.tags = some path).flatMap
      Visit.literal)

theorem map_fst_routes (blocks : List Visit) :
    (blocks.filterMap Visit.route?).map Prod.fst =
      blocks.filterMap fun v => destination? v.tags := by
  rw [List.map_filterMap]
  refine congrArg (fun place => blocks.filterMap place) (funext fun v => ?_)
  rw [Visit.route?, Option.map_map]
  exact Option.map_id'

theorem textUnder_routes (path : Text) (blocks : List Visit) :
    textUnder path (blocks.filterMap Visit.route?) =
      (blocks.filter fun v => destination? v.tags = some path).flatMap
        Visit.literal := by
  induction blocks with
  | nil => rfl
  | cons v blocks ih =>
      rw [textUnder] at ih ⊢
      rw [List.filterMap_cons, Visit.route?]
      cases hd : destination? v.tags with
      | none => simpa [hd] using ih
      | some p => by_cases hp : p = path <;> simp [hd, hp, ih]

theorem FileMap.entries_ofEntries_routes (blocks : List Visit) :
    (ofEntries (blocks.filterMap Visit.route?)).entries =
      groupedByDestination blocks := by
  rw [entries_ofEntries, map_fst_routes, groupedByDestination]
  exact List.map_congr_left fun p _ => by rw [textUnder_routes]

theorem TagFilter.entries_multi (f : TagFilter) (visited : List Visit) :
    (f.multi visited).entries = groupedByDestination
      (visited.filter fun v => f.accepts (plainTags v.tags)) := by
  rw [TagFilter.multi_eq, f.filterMap_route?, FileMap.entries_ofEntries_routes]

/-! ## Filters that ask for no file -/

theorem mem_plainTags {tag : Text} {tags : List Text} :
    tag ∈ plainTags tags ↔ tag ∈ tags ∧ ¬ filePrefix <+: tag := by
  rw [plainTags, List.mem_filter, Option.isNone_iff_eq_none, filePath?_eq_none_iff]

theorem TagFilter.accepts_iff {f : TagFilter} {tags : List Text} :
    f.accepts tags = true ↔
      (∀ tag ∈ f.required, tag ∈ tags) ∧ ∀ tag ∈ f.excluded, tag ∉ tags := by
  simp only [accepts, Bool.and_eq_true, Bool.not_eq_true', List.all_eq_true,
    List.any_eq_false, List.contains_iff_mem]

theorem TagFilter.accepts_plainTags {f : TagFilter}
    (h : ∀ tag ∈ f.required ++ f.excluded, ¬ filePrefix <+: tag)
    (tags : List Text) : f.accepts (plainTags tags) = f.accepts tags := by
  have hmem : ∀ tag ∈ f.required ++ f.excluded, (tag ∈ plainTags tags ↔ tag ∈ tags) :=
    fun tag htag => mem_plainTags.trans (and_iff_left (h tag htag))
  rw [Bool.eq_iff_iff, accepts_iff, accepts_iff]
  refine and_congr (forall₂_congr fun tag htag => ?_) (forall₂_congr fun tag htag => ?_)
  · exact hmem tag (List.mem_append_left _ htag)
  · exact not_congr (hmem tag (List.mem_append_right _ htag))

/-! ## Lengths -/

theorem byteLength_eq_sum (s : Text) :
    Text.byteLength s = (s.map Char.utf8Size).sum := by
  induction s with
  | nil => rfl
  | cons c s ih =>
      rw [List.map_cons, List.sum_cons, ← ih]
      rfl

theorem byteLength_of_perm {s s' : Text} (h : s.Perm s') :
    s.byteLength = s'.byteLength := by
  rw [byteLength_eq_sum, byteLength_eq_sum]
  exact (h.map _).sum_nat

theorem byteLength_flatMap (entries : List (Text × Text)) :
    Text.byteLength (entries.flatMap Prod.snd) =
      (entries.map fun e => Text.byteLength e.2).sum := by
  induction entries with
  | nil => rfl
  | cons e entries ih =>
      rw [List.flatMap_cons, Text.byteLength_append, ih, List.map_cons, List.sum_cons]

/-! ## The two extractions -/

section

variable {f : TagFilter} {v : Visit} {seen blocks : List Visit}

theorem TagFilter.multi_concat_some {path content : Text}
    (h : f.route? v = some (path, content)) :
    f.multi (seen ++ [v]) = (f.multi seen).append path content := by
  rw [TagFilter.multi_eq, List.filterMap_append, List.filterMap_cons_some h,
    List.filterMap_nil, FileMap.ofEntries_concat, TagFilter.multi_eq]

theorem TagFilter.multi_concat_none (h : f.route? v = none) :
    f.multi (seen ++ [v]) = f.multi seen := by
  rw [TagFilter.multi_eq, List.filterMap_append, List.filterMap_cons_none h,
    List.filterMap_nil, List.append_nil, TagFilter.multi_eq]

theorem flatMap_snd_routes (h : ∀ v ∈ blocks, ∃ path, destination? v.tags = some path) :
    (blocks.filterMap Visit.route?).flatMap Prod.snd =
      blocks.flatMap Visit.literal := by
  induction blocks with
  | nil => rfl
  | cons v blocks ih =>
      obtain ⟨path, hpath⟩ := h v (List.mem_cons_self ..)
      have hroute : v.route? = some (path, v.literal) := by
        rw [Visit.route?, hpath]
        rfl
      rw [List.filterMap_cons_some hroute, List.flatMap_cons, List.flatMap_cons,
        ih fun u hu => h u (List.mem_cons_of_mem _ hu)]

end

/-- Extraction to files and extraction to one text take the same blocks, but for
those that have no destination, if the filter asks for no file tag.

Block by block: a block adds its text under the path that its last file tag names
if that is a path and the filter of the single text takes it, and otherwise it
changes nothing. So the files get the blocks of the single text grouped by
destination, and if all of these have one the files' texts are together as long as
the single text. -/
theorem single_multi_agree {o : ExtractOptions}
    (hplain : ∀ tag ∈ o.filter.required ++ o.filter.excluded, ¬ filePrefix <+: tag)
    (document : Text) :
    let visited := visits (o.walker.walk document)
    let kept := visited.filter fun v => o.filter.accepts v.tags
    let text := (o.single document).value
    let files := (o.multi document).value
    (∀ seen v,
      (∀ path ≠ [], NamesLast path v.tags → o.filter.accepts v.tags = true →
        o.filter.multi (seen ++ [v]) =
          (o.filter.multi seen).append path v.literal) ∧
      (¬ (o.filter.accepts v.tags = true ∧ ∃ path ≠ [], NamesLast path v.tags) →
        o.filter.multi (seen ++ [v]) = o.filter.multi seen)) ∧
    files = o.filter.multi visited ∧
    text = kept.flatMap Visit.literal ∧
    files.entries = groupedByDestination kept ∧
    ((∀ v ∈ kept, ∃ path ≠ [], NamesLast path v.tags) →
      files.contents.Perm text ∧
      (files.entries.map fun e => Text.byteLength e.2).sum = text.byteLength) := by
  intro visited kept text files
  -- by `hplain` both extractions ask the filter the same
  have hroute (v : Visit) : o.filter.route? v =
      if o.filter.accepts v.tags then v.route? else none := by
    rw [o.filter.route?_eq, TagFilter.accepts_plainTags hplain]
  have hkept : (visited.filter fun v => o.filter.accepts (plainTags v.tags)) =
      kept := by
    simp only [kept, TagFilter.accepts_plainTags hplain]
  refine ⟨fun seen v => ⟨fun path hpath hnames haccepts => ?_, fun hnot => ?_⟩,
    rfl, rfl, ?_, fun hall => ?_⟩
  · refine TagFilter.multi_concat_some ?_
    rw [hroute, if_pos haccepts, Visit.route?,
      destination?_eq_some_iff.2 ⟨hnames, hpath⟩]
    rfl
  · refine TagFilter.multi_concat_none ?_
    rw [hroute]
    split
    · next haccepts =>
        cases hd : destination? v.tags with
        | none => rw [Visit.route?, hd]; rfl
        | some path =>
            obtain ⟨hnames, hpath⟩ := destination?_eq_some_iff.1 hd
            exact absurd ⟨haccepts, path, hpath, hnames⟩ hnot
    · rfl
  · rw [← hkept]
    exact o.filter.entries_multi visited
  · have hperm : files.contents.Perm text := by
      have hfiles : files = .ofEntries (kept.filterMap Visit.route?) := by
        rw [← hkept, ← o.filter.filterMap_route?]
        rfl
      rw [hfiles]
      refine (FileMap.contents_ofEntries_perm _).trans (.of_eq ?_)
      refine flatMap_snd_routes fun v hv => ?_
      obtain ⟨path, hpath, hnames⟩ := hall v hv
      exact ⟨path, destination?_eq_some_iff.2 ⟨hnames, hpath⟩⟩
    exact ⟨hperm, (byteLength_flatMap _).symm.trans (byteLength_of_perm hperm)⟩

/-- Blocks that name files more than once, or in the end none. -/
def tanglingDocument : Text :=
  ["```sh file=a ci file=b", "A", "```", "```ci file=c", "C", "```",
    "```ci loose file=b file=", "L", "```", "```file=a ci noci", "N", "```",
    "```file=b ci", "B", "```"].flatMap fun line => line.toList ++ ['\n']

/-- A block whose last file tag is empty is in the text and in no file; without it
the files are as long as the text. -/
theorem single_multi_agree_tangling :
    let o : ExtractOptions := ⟨⟨["ci".toList], ["noci".toList]⟩, {}⟩
    let strict : ExtractOptions := ⟨⟨["ci".toList], ["noci".toList, "loose".toList]⟩, {}⟩
    let entries := [("b".toList, "A\nB\n".toList), ("c".toList, "C\n".toList)]
    (∀ tag ∈ o.filter.required ++ o.filter.excluded, ¬ filePrefix <+: tag) ∧
      (o.single tanglingDocument).value = "A\nC\nL\nB\n".toList ∧
      (o.multi tanglingDocument).value.entries = entries ∧
      (∀ tag ∈ strict.filter.required ++ strict.filter.excluded,
        ¬ filePrefix <+: tag) ∧
      (entries.map fun e => Text.byteLength e.2).sum =
        (strict.single tanglingDocument).value.byteLength := by
  intro o strict entries
  have hplain : ∀ tag ∈ o.filter.required ++ o.filter.excluded,
      ¬ filePrefix <+: tag := by decide
  have hstrict : ∀ tag ∈ strict.filter.required ++ strict.filter.excluded,
      ¬ filePrefix <+: tag := by decide
  obtain ⟨-, -, htext, hfiles, -⟩ := single_multi_agree hplain tanglingDocument
  obtain ⟨-, -, -, hgrouped, hlengths⟩ := single_multi_agree hstrict tanglingDocument
  refine ⟨hplain, htext.trans (by decide +kernel), hfiles.trans (by decide +kernel),
    hstrict, ?_⟩
  have hsame : entries = (strict.multi tanglingDocument).value.entries :=
    Eq.symm (hgrouped.trans (by decide +kernel))
  rw [hsame]
  refine (hlengths fun v hv => ?_).2
  have hall : ∀ v ∈ (visits (strict.walker.walk tanglingDocument)).filter
      fun v => strict.filter.accepts v.tags, (destination? v.tags).isSome := by
    decide +kernel
  obtain ⟨path, hpath⟩ := Option.isSome_iff_exists.1 (hall v hv)
  obtain ⟨hnames, hne⟩ := destination?_eq_some_iff.1 hpath
  exact ⟨path, hne, hnames⟩

end Tangle
