import Tangle.Proofs.FileTags

/-!
# How filters compose

Filters are compared by what they let through: `TagFilter.taken` are the visited
blocks that go into the single text, `TagFilter.filed` those that go to files. A
filter asks of the tags of a block that some be among them and others not
(`TagFilter.accepts_iff`), so only what its lists hold matters, and a filter with
more in its lists lets a subsequence through (`TagFilter.accepts_of_subset`). All
else follows from these two.

To files this says nothing about the order of the paths. A filter that asks for
more may leave out the first block of a path, which then comes up later.
-/

namespace Tangle

namespace TagFilter

/-- Asks for what two filters ask for. -/
def both (f g : TagFilter) : TagFilter :=
  ⟨f.required ++ g.required, f.excluded ++ g.excluded⟩

/-- Asks for one tag. -/
def requiring (tag : Text) : TagFilter := { required := [tag] }

/-- Asks for blocks without one tag. -/
def excluding (tag : Text) : TagFilter := { excluded := [tag] }

/-- The visited blocks that go into the single text. -/
def taken (f : TagFilter) (visited : List Visit) : List Visit :=
  visited.filter fun v => f.accepts v.tags

/-- The visited blocks that go to files. -/
def filed (f : TagFilter) (visited : List Visit) : List Visit :=
  visited.filter fun v => (f.route? v).isSome

/-- The visited blocks that go to the file with this path. -/
def filedUnder (f : TagFilter) (path : Text) (visited : List Visit) : List Visit :=
  visited.filter fun v => v.FiledUnder f path

section

variable {f g : TagFilter} {tags : List Text} {visited : List Visit}

/-! ## What a filter asks for -/

theorem accepts_both (f g : TagFilter) (tags : List Text) :
    (f.both g).accepts tags = (f.accepts tags && g.accepts tags) := by
  rw [Bool.eq_iff_iff, Bool.and_eq_true, accepts_iff, accepts_iff, accepts_iff, both]
  simp only [List.forall_mem_append]
  exact and_and_and_comm

theorem accepts_of_subset (hrequired : f.required ⊆ g.required)
    (hexcluded : f.excluded ⊆ g.excluded) (h : g.accepts tags = true) :
    f.accepts tags = true := by
  rw [accepts_iff] at h ⊢
  exact ⟨fun tag htag => h.1 tag (hrequired htag),
    fun tag htag => h.2 tag (hexcluded htag)⟩

/-- Order and repetition in the lists do not matter. -/
theorem accepts_congr (hrequired : ∀ tag, tag ∈ f.required ↔ tag ∈ g.required)
    (hexcluded : ∀ tag, tag ∈ f.excluded ↔ tag ∈ g.excluded) (tags : List Text) :
    f.accepts tags = g.accepts tags :=
  Bool.eq_iff_iff.2
    ⟨accepts_of_subset (fun tag => (hrequired tag).2) fun tag => (hexcluded tag).2,
      accepts_of_subset (fun tag => (hrequired tag).1) fun tag => (hexcluded tag).1⟩

theorem accepts_nothing (tags : List Text) : accepts {} tags = true := rfl

theorem accepts_requiring (tag : Text) (tags : List Text) :
    (requiring tag).accepts tags = decide (tag ∈ tags) := by
  rw [Bool.eq_iff_iff, accepts_iff, decide_eq_true_eq, requiring]
  simp only [List.forall_mem_singleton]
  exact and_iff_left nofun

theorem accepts_excluding (tag : Text) (tags : List Text) :
    (excluding tag).accepts tags = !decide (tag ∈ tags) := by
  rw [Bool.eq_iff_iff, accepts_iff, Bool.not_eq_true', decide_eq_false_iff_not,
    excluding]
  simp only [List.forall_mem_singleton]
  exact and_iff_right nofun

theorem isSome_route? (f : TagFilter) (v : Visit) : (f.route? v).isSome =
    ((destination? v.tags).isSome && f.accepts (plainTags v.tags)) := by
  rw [f.route?_eq, Visit.route?]
  cases f.accepts (plainTags v.tags) <;> cases destination? v.tags <;> rfl

theorem filedUnder_of_subset {v : Visit} {path : Text}
    (hrequired : f.required ⊆ g.required) (hexcluded : f.excluded ⊆ g.excluded)
    (h : v.FiledUnder g path) : v.FiledUnder f path := by
  obtain ⟨hnames, hne, hpasses⟩ := h
  rw [← accepts_plainTags_iff] at hpasses
  exact ⟨hnames, hne,
    accepts_plainTags_iff.1 (accepts_of_subset hrequired hexcluded hpasses)⟩

/-! ## What a filter lets through -/

theorem taken_both (f g : TagFilter) (visited : List Visit) :
    (f.both g).taken visited = g.taken (f.taken visited) := by
  rw [taken, taken, taken, List.filter_filter]
  refine List.filter_congr fun v _ => ?_
  rw [accepts_both, Bool.and_comm]

theorem filed_both (f g : TagFilter) (visited : List Visit) :
    (f.both g).filed visited = g.filed (f.filed visited) := by
  rw [filed, filed, filed, List.filter_filter]
  refine List.filter_congr fun v _ => ?_
  rw [isSome_route?, isSome_route?, isSome_route?, accepts_both]
  cases (destination? v.tags).isSome
  · rfl
  · simp only [Bool.true_and]
    exact Bool.and_comm ..

theorem taken_sublist (hrequired : f.required ⊆ g.required)
    (hexcluded : f.excluded ⊆ g.excluded) :
    (g.taken visited).Sublist (f.taken visited) :=
  List.monotone_filter_right visited fun _ => accepts_of_subset hrequired hexcluded

theorem filed_sublist (hrequired : f.required ⊆ g.required)
    (hexcluded : f.excluded ⊆ g.excluded) :
    (g.filed visited).Sublist (f.filed visited) := by
  refine List.monotone_filter_right visited fun v h => ?_
  rw [isSome_route?, Bool.and_eq_true] at h ⊢
  exact ⟨h.1, accepts_of_subset hrequired hexcluded h.2⟩

theorem filedUnder_sublist (path : Text) (hrequired : f.required ⊆ g.required)
    (hexcluded : f.excluded ⊆ g.excluded) :
    (g.filedUnder path visited).Sublist (f.filedUnder path visited) := by
  refine List.monotone_filter_right visited fun v h => ?_
  rw [decide_eq_true_eq] at h ⊢
  exact filedUnder_of_subset hrequired hexcluded h

theorem paths_multi_subset (hrequired : f.required ⊆ g.required)
    (hexcluded : f.excluded ⊆ g.excluded) :
    (g.multi visited).paths ⊆ (f.multi visited).paths := by
  intro path hpath
  obtain ⟨v, hv, hfiled⟩ := mem_paths_multi.1 hpath
  exact mem_paths_multi.2 ⟨v, hv, filedUnder_of_subset hrequired hexcluded hfiled⟩

/-- A tag is among those of a block or it is not. -/
theorem partition_taken (tag : Text) (visited : List Visit) :
    visited.partition (fun v => tag ∈ v.tags) =
      ((requiring tag).taken visited, (excluding tag).taken visited) := by
  rw [List.partition_eq_filter_filter, taken, taken]
  simp only [accepts_requiring, accepts_excluding]
  rfl

theorem partition_filed {tag : Text} (h : ¬ filePrefix <+: tag)
    (visited : List Visit) :
    ((filed {} visited).partition fun v => tag ∈ v.tags) =
      ((requiring tag).filed visited, (excluding tag).filed visited) := by
  have hplain (v : Visit) :
      decide (tag ∈ plainTags v.tags) = decide (tag ∈ v.tags) :=
    decide_eq_decide.2 (mem_plainTags.trans (and_iff_left h))
  rw [List.partition_eq_filter_filter, filed, List.filter_filter, List.filter_filter,
    filed, filed]
  refine congrArg₂ Prod.mk (List.filter_congr fun v _ => ?_)
    (List.filter_congr fun v _ => ?_)
  · rw [isSome_route?, isSome_route?, accepts_nothing, accepts_requiring, hplain v,
      Bool.and_true, Bool.and_comm]
  · rw [isSome_route?, isSome_route?, accepts_nothing, accepts_excluding, hplain v,
      Bool.and_true, Bool.and_comm]
    rfl

end

end TagFilter

/-! ## What is extracted -/

namespace ExtractOptions

variable {f g : TagFilter} {w : Walker} {document : Text}

theorem single_congr
    (h : ∀ v ∈ visits (w.walk document), f.accepts v.tags = g.accepts v.tags) :
    single ⟨f, w⟩ document = single ⟨g, w⟩ document := by
  have htaken : f.taken (visits (w.walk document)) =
      g.taken (visits (w.walk document)) := List.filter_congr h
  exact congrArg (fun blocks : List Visit => Logged.mk (blocks.flatMap Visit.literal) _)
    htaken

theorem multi_congr (h : ∀ v ∈ visits (w.walk document),
      f.accepts (plainTags v.tags) = g.accepts (plainTags v.tags)) :
    multi ⟨f, w⟩ document = multi ⟨g, w⟩ document := by
  have hroutes : (visits (w.walk document)).filterMap f.route? =
      (visits (w.walk document)).filterMap g.route? := by
    refine List.filterMap_congr fun v hv => ?_
    rw [f.route?_eq, g.route?_eq, h v hv]
  exact congrArg (fun entries => Logged.mk (FileMap.ofEntries entries) _) hroutes

end ExtractOptions

/-- What two filters let through, one after the other, is what a filter lets through
that asks for all that they ask for; and what a filter asks for is a matter of what
its lists hold. A filter that asks for more lets a subsequence through: of the blocks
of the single text, and of those of each path, of which there may be fewer. The
blocks with a tag and those without it share out all blocks, and also those that go
to files unless the tag names one. -/
theorem filters_compose (w : Walker) (document : Text) :
    let visited := visits (w.walk document)
    let text := fun f : TagFilter => (ExtractOptions.single ⟨f, w⟩ document).value
    let files := fun f : TagFilter => (ExtractOptions.multi ⟨f, w⟩ document).value
    (∀ f, text f = (f.taken visited).flatMap Visit.literal ∧
      ∀ path content, (path, content) ∈ (files f).entries ↔
        (∃ v ∈ visited, v.FiledUnder f path) ∧
          content = (f.filedUnder path visited).flatMap Visit.literal) ∧
    (∀ f g : TagFilter, (f.both g).taken visited = g.taken (f.taken visited) ∧
      (f.both g).filed visited = g.filed (f.filed visited)) ∧
    (∀ f g : TagFilter, (∀ tag, tag ∈ f.required ↔ tag ∈ g.required) →
      (∀ tag, tag ∈ f.excluded ↔ tag ∈ g.excluded) →
        f.taken visited = g.taken visited ∧ f.filed visited = g.filed visited ∧
        text f = text g ∧ files f = files g) ∧
    (∀ f g : TagFilter, f.required ⊆ g.required → f.excluded ⊆ g.excluded →
      (g.taken visited).Sublist (f.taken visited) ∧
      (g.filed visited).Sublist (f.filed visited) ∧
      (files g).paths ⊆ (files f).paths ∧
      ∀ path, (g.filedUnder path visited).Sublist (f.filedUnder path visited)) ∧
    ∀ tag, visited.partition (fun v => tag ∈ v.tags) =
        ((TagFilter.requiring tag).taken visited,
          (TagFilter.excluding tag).taken visited) ∧
      (¬ filePrefix <+: tag →
        ((TagFilter.filed {} visited).partition fun v => tag ∈ v.tags) =
          ((TagFilter.requiring tag).filed visited,
            (TagFilter.excluding tag).filed visited)) := by
  intro visited text files
  refine ⟨fun f => ⟨rfl, fun path content => TagFilter.mem_entries_multi⟩,
    fun f g => ⟨TagFilter.taken_both f g visited, TagFilter.filed_both f g visited⟩,
    fun f g hrequired hexcluded => ?_,
    fun f g hrequired hexcluded => ⟨TagFilter.taken_sublist hrequired hexcluded,
      TagFilter.filed_sublist hrequired hexcluded,
      TagFilter.paths_multi_subset hrequired hexcluded,
      fun path => TagFilter.filedUnder_sublist path hrequired hexcluded⟩,
    fun tag => ⟨TagFilter.partition_taken tag visited,
      fun htag => TagFilter.partition_filed htag visited⟩⟩
  have hsame := TagFilter.accepts_congr hrequired hexcluded
  refine ⟨List.filter_congr fun v _ => hsame v.tags,
    List.filter_congr fun v _ => ?_,
    congrArg Logged.value (ExtractOptions.single_congr fun v _ => hsame v.tags),
    congrArg Logged.value
      (ExtractOptions.multi_congr fun v _ => hsame (plainTags v.tags))⟩
  rw [TagFilter.isSome_route?, TagFilter.isSome_route?, hsame]

/-- A filter that asks for more leaves out the first block of a path, so that the
path comes up behind another one. -/
theorem filters_compose_tangling :
    let weak : TagFilter := ⟨["ci".toList], []⟩
    let strong : TagFilter := ⟨["ci".toList], ["sh".toList, "noci".toList]⟩
    let again : TagFilter :=
      ⟨["ci".toList, "ci".toList], ["noci".toList, "sh".toList, "noci".toList]⟩
    let visited := visits (Walker.walk {} tanglingDocument)
    let files := fun f : TagFilter => (ExtractOptions.multi ⟨f, {}⟩ tanglingDocument).value
    weak.required ⊆ strong.required ∧ weak.excluded ⊆ strong.excluded ∧
      (files weak).paths = ["b".toList, "c".toList, "a".toList] ∧
      (files strong).paths = ["c".toList, "b".toList] ∧
      (strong.filedUnder "b".toList visited).Sublist
        (weak.filedUnder "b".toList visited) ∧
      files strong = files again ∧
      ¬ filePrefix <+: "sh".toList ∧
      ((TagFilter.filed {} visited).partition fun v => "sh".toList ∈ v.tags) =
        ((TagFilter.requiring "sh".toList).filed visited,
          (TagFilter.excluding "sh".toList).filed visited) := by
  intro weak strong again visited files
  obtain ⟨-, -, hlists, hstronger, htag⟩ := filters_compose {} tanglingDocument
  have hrequired : weak.required ⊆ strong.required := by decide
  have hexcluded : weak.excluded ⊆ strong.excluded := by decide
  have hsh : ¬ filePrefix <+: "sh".toList := by decide
  obtain ⟨-, -, -, hunder⟩ := hstronger weak strong hrequired hexcluded
  obtain ⟨-, -, -, hagain⟩ := hlists strong again (by simp [strong, again])
    (by simp [strong, again])
  exact ⟨hrequired, hexcluded, by decide +kernel, by decide +kernel, hunder _, hagain,
    hsh, (htag "sh".toList).2 hsh⟩

end Tangle
