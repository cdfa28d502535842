import Tangle.Proofs.FilterLaws
import Tangle.Settings

/-!
# Tags that no block carries

A filter takes any text for a tag, but the tags of a block are read from an info
string and are tags in earnest (`isTag_of_mem_tags`). A filter that requires
something else lets no block through, and one that excludes something else does
not notice. When blocks go to files the same holds of tags that name a file, since
the filter does not see them.

So the empty tags that are dropped from a configured list of excluded tags make no
difference (`mergeSettings_filter` says that they are dropped), and if an empty tag
were left among the required ones nothing would ever be extracted.
-/

namespace Tangle

/-! ## What a filter can see -/

/-- A text that can be a tag and does not name a file. -/
structure IsPlainTag (tag : Text) : Prop extends IsTag tag where
  not_file : ¬ filePrefix <+: tag

section

variable {w : Walker} {document tag : Text} {v : Visit}

theorem isTag_of_mem_tags (hv : v ∈ visits (w.walk document)) (htag : tag ∈ v.tags) :
    IsTag tag := by
  obtain ⟨info, hinfo⟩ := Walker.exists_info_of_mem_walk hv
  exact isTag_of_mem_parseTags (hinfo ▸ htag)

theorem isPlainTag_of_mem_plainTags (hv : v ∈ visits (w.walk document))
    (htag : tag ∈ plainTags v.tags) : IsPlainTag tag := by
  obtain ⟨hmem, hfile⟩ := mem_plainTags.1 htag
  exact ⟨isTag_of_mem_tags hv hmem, hfile⟩

end

/-! ## Filters that ask for such tags -/

namespace TagFilter

theorem not_accepts_of_required {f : TagFilter} {tag : Text} {tags : List Text}
    (htag : tag ∈ f.required) (hnone : tag ∉ tags) : ¬ f.accepts tags = true :=
  fun h => hnone ((accepts_iff.1 h).1 tag htag)

/-- Of the excluded tags those matter that the block carries. -/
theorem accepts_congr_excluded {required excluded excluded' tags : List Text}
    (h : ∀ tag ∈ tags, (tag ∈ excluded ↔ tag ∈ excluded')) :
    accepts ⟨required, excluded⟩ tags = accepts ⟨required, excluded'⟩ tags := by
  rw [Bool.eq_iff_iff, accepts_iff, accepts_iff]
  refine and_congr_right fun _ => ⟨fun hnone tag hexcluded htag => ?_,
    fun hnone tag hexcluded htag => ?_⟩
  · exact hnone tag ((h tag htag).2 hexcluded) htag
  · exact hnone tag ((h tag htag).1 hexcluded) htag

end TagFilter

namespace ExtractOptions

/-- The same with another list of required tags. -/
def withRequired (o : ExtractOptions) (required : List Text) : ExtractOptions :=
  { o with filter := { o.filter with required } }

/-- The same with another list of excluded tags. -/
def withExcluded (o : ExtractOptions) (excluded : List Text) : ExtractOptions :=
  { o with filter := { o.filter with excluded } }

variable {o : ExtractOptions} {tag : Text}

theorem single_eq_nil (htag : tag ∈ o.filter.required) (hnot : ¬ IsTag tag)
    (document : Text) : (o.single document).value = [] := by
  have htaken : o.filter.taken (visits (o.walker.walk document)) = [] :=
    List.filter_eq_nil_iff.2 fun v hv =>
      TagFilter.not_accepts_of_required htag fun hmem => hnot (isTag_of_mem_tags hv hmem)
  exact congrArg (fun blocks : List Visit => blocks.flatMap Visit.literal) htaken

theorem multi_eq_empty (htag : tag ∈ o.filter.required) (hnot : ¬ IsPlainTag tag)
    (document : Text) : (o.multi document).value = .empty := by
  have hroutes : (visits (o.walker.walk document)).filterMap o.filter.route? = [] := by
    refine List.filterMap_eq_nil_iff.2 fun v hv => ?_
    rw [o.filter.route?_eq, if_neg]
    exact TagFilter.not_accepts_of_required htag fun hmem =>
      hnot (isPlainTag_of_mem_plainTags hv hmem)
  exact congrArg FileMap.ofEntries hroutes

theorem single_withExcluded {excluded : List Text}
    (h : ∀ tag, IsTag tag → (tag ∈ excluded ↔ tag ∈ o.filter.excluded))
    (document : Text) : (o.withExcluded excluded).single document = o.single document :=
  single_congr fun _ hv =>
    TagFilter.accepts_congr_excluded fun tag htag => h tag (isTag_of_mem_tags hv htag)

theorem multi_withExcluded {excluded : List Text}
    (h : ∀ tag, IsPlainTag tag → (tag ∈ excluded ↔ tag ∈ o.filter.excluded))
    (document : Text) : (o.withExcluded excluded).multi document = o.multi document :=
  multi_congr fun _ hv => TagFilter.accepts_congr_excluded fun tag htag =>
    h tag (isPlainTag_of_mem_plainTags hv htag)

end ExtractOptions

/-! ## Configured lists -/

theorem not_isTag_nil : ¬ IsTag [] := fun h => h.ne_nil rfl

theorem namedTags_eq (tags : List Text) :
    Config.namedTags tags = tags.filter (· ≠ []) := by
  refine List.filter_congr fun tag _ => ?_
  cases tag <;> rfl

theorem namedTags_namedTags (tags : List Text) :
    Config.namedTags (Config.namedTags tags) = Config.namedTags tags := by
  rw [Config.namedTags, Config.namedTags, List.filter_filter]
  simp only [Bool.and_self]

/-- What is given on the command line or else configured, without empty tags. A
configured list may be filtered twice. -/
theorem mergeSettings_filter (c : Config) (flags : FilterFlags) :
    (mergeSettings c flags).options.filter =
      ⟨(flags.tags.getD c.filter.tags).filter (· ≠ []),
        (flags.excludeTags.getD c.filter.excludeTags).filter (· ≠ [])⟩ := by
  rw [mergeSettings, Config.extractOptions, ← namedTags_eq, ← namedTags_eq]
  cases flags.tags <;> cases flags.excludeTags <;> simp [namedTags_namedTags]

/-- Tags that are none are never met, and neither are tags that name a file where
blocks go to files. If one is required nothing is extracted, and having them among
the excluded tags or not is the same.

Settings drop empty tags. With the excluded tags as they were given everything would
be extracted as it is, and with an empty tag left among the required ones nothing
would. -/
theorem uncarried_tags :
    (∀ (o : ExtractOptions) (document : Text),
      ((∃ tag ∈ o.filter.required, ¬ IsTag tag) → (o.single document).value = []) ∧
      ((∃ tag ∈ o.filter.required, ¬ IsPlainTag tag) →
        (o.multi document).value = .empty)) ∧
    (∀ (o : ExtractOptions) (excluded : List Text) (document : Text),
      ((∀ tag, IsTag tag → (tag ∈ excluded ↔ tag ∈ o.filter.excluded)) →
        (o.withExcluded excluded).single document = o.single document) ∧
      ((∀ tag, IsPlainTag tag → (tag ∈ excluded ↔ tag ∈ o.filter.excluded)) →
        (o.withExcluded excluded).multi document = o.multi document)) ∧
    (∀ c : Config, (mergeSettings c {}).options = c.extractOptions) ∧
    ∀ (c : Config) (flags : FilterFlags),
      let o := (mergeSettings c flags).options
      let required := flags.tags.getD c.filter.tags
      let excluded := flags.excludeTags.getD c.filter.excludeTags
      o.filter = ⟨required.filter (· ≠ []), excluded.filter (· ≠ [])⟩ ∧
      ∀ document : Text,
        (o.withExcluded excluded).single document = o.single document ∧
        (o.withExcluded excluded).multi document = o.multi document ∧
        ∀ left : List Text, [] ∈ left →
          ((o.withRequired left).single document).value = [] ∧
          ((o.withRequired left).multi document).value = .empty := by
  refine ⟨fun o document => ⟨?_, ?_⟩, fun o excluded document =>
    ⟨fun h => ExtractOptions.single_withExcluded h document,
      fun h => ExtractOptions.multi_withExcluded h document⟩,
    fun c => ?_, fun c flags => ?_⟩
  · rintro ⟨tag, htag, hnot⟩
    exact ExtractOptions.single_eq_nil htag hnot document
  · rintro ⟨tag, htag, hnot⟩
    exact ExtractOptions.multi_eq_empty htag hnot document
  · rfl
  · intro o required excluded
    have hfilter : o.filter = ⟨required.filter (· ≠ []), excluded.filter (· ≠ [])⟩ :=
      mergeSettings_filter c flags
    have hsame (tag : Text) (htag : IsTag tag) :
        tag ∈ excluded ↔ tag ∈ o.filter.excluded := by
      rw [hfilter, List.mem_filter, decide_eq_true_eq]
      exact (and_iff_left htag.ne_nil).symm
    refine ⟨hfilter, fun document =>
      ⟨ExtractOptions.single_withExcluded hsame document,
        ExtractOptions.multi_withExcluded (fun tag h => hsame tag h.toIsTag) document,
        fun left hleft => ⟨?_, ?_⟩⟩⟩
    · exact ExtractOptions.single_eq_nil (o := o.withRequired left) hleft not_isTag_nil
        document
    · exact ExtractOptions.multi_eq_empty (o := o.withRequired left) hleft
        (fun h => not_isTag_nil h.toIsTag) document

/-- A tag with a tab at its end, one that names a file and one with a space, and a
configuration with empty tags. -/
theorem uncarried_tags_tangling :
    let padded : ExtractOptions := ⟨⟨["ci\t".toList], []⟩, {}⟩
    let sending : ExtractOptions := ⟨⟨["file=b".toList], []⟩, {}⟩
    let c : Config :=
      ⟨{ tags := [[], "ci".toList], excludeTags := ["noci".toList, []] }, {}⟩
    let o := c.extractOptions
    (∃ tag ∈ padded.filter.required, ¬ IsTag tag) ∧
      (padded.single tanglingDocument).value = [] ∧
      (∃ tag ∈ sending.filter.required, ¬ IsPlainTag tag) ∧
      (sending.multi tanglingDocument).value = .empty ∧
      (sending.single tanglingDocument).value = "A\nL\nB\n".toList ∧
      (∀ tag, IsTag tag → (tag ∈ ["no ci".toList] ↔ tag ∈ sending.filter.excluded)) ∧
      (sending.withExcluded ["no ci".toList]).single tanglingDocument =
        sending.single tanglingDocument ∧
      (o.single tanglingDocument).value = "A\nC\nL\nB\n".toList ∧
      (o.withExcluded c.filter.excludeTags).single tanglingDocument =
        o.single tanglingDocument ∧
      [] ∈ c.filter.tags ∧
      ((o.withRequired c.filter.tags).single tanglingDocument).value = [] := by
  intro padded sending c o
  obtain ⟨hrequired, hexcluded, -, hsettings⟩ := uncarried_tags
  have hpadded : ∃ tag ∈ padded.filter.required, ¬ IsTag tag :=
    ⟨_, List.mem_singleton_self _, by decide⟩
  have hsending : ∃ tag ∈ sending.filter.required, ¬ IsPlainTag tag :=
    ⟨_, List.mem_singleton_self _, fun h => h.not_file (by decide)⟩
  have hspace (tag : Text) (htag : IsTag tag) :
      tag ∈ ["no ci".toList] ↔ tag ∈ sending.filter.excluded := by
    refine ⟨fun hmem => ?_, fun hmem => absurd hmem List.not_mem_nil⟩
    rw [List.mem_singleton.1 hmem] at htag
    exact absurd htag (by decide)
  obtain ⟨-, hconfigured⟩ := hsettings c {}
  obtain ⟨hdropped, -, hleft⟩ := hconfigured tanglingDocument
  have hempty : [] ∈ c.filter.tags := List.mem_cons_self ..
  exact ⟨hpadded, (hrequired padded tanglingDocument).1 hpadded, hsending,
    (hrequired sending tanglingDocument).2 hsending, by decide +kernel, hspace,
    (hexcluded sending _ tanglingDocument).1 hspace, by decide +kernel, hdropped,
    hempty, (hleft c.filter.tags hempty).1⟩

end Tangle
