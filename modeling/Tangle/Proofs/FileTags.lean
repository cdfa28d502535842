import Mathlib.Data.List.Forall2
import Tangle.Proofs.Routing
import Tangle.Proofs.TagGrammar
import Tangle.Proofs.WalkRefine

/-!
# What file tags decide

A block is filed under the path that its last file tag names, if there is a path
in that tag and the tags that name no file pass the filter (`FiledUnder`). The
map of a document has a path for every block that is filed, where the first one
under it comes up, and under it the texts of all of them (`multi_filed`).

File tags before the last one decide nothing: they name no destination, and the
filter does not see them. So they can come and go (`route?_of_dropOverridden`).
-/

namespace Tangle

/-! ## The tags of visited blocks -/

namespace Walker

/-- The tags of every visited block are those of an info string. -/
theorem DepthFirst.exists_info {w : Walker} {depth : Nat} {blocks : List Markdown.Block}
    {out : List Finding} (h : DepthFirst w depth blocks out) :
    ∀ v ∈ visits out, ∃ info, v.tags = parseTags info := by
  induction h with
  | done => exact fun _ hv => absurd hv List.not_mem_nil
  | code info literal _ ih =>
      intro v hv
      rcases List.mem_cons.1 hv with rfl | hv
      · exact ⟨info, rfl⟩
      · exact ih v hv
  | excluded _ _ ih => exact ih
  | plain _ _ ih => exact ih
  | tooDeep _ _ _ _ _ ih => exact ih
  | inside _ _ _ _ _ ihin ih =>
      intro v hv
      rw [visits, List.filterMap_append] at hv
      rcases List.mem_append.1 hv with hv | hv
      · exact ihin v hv
      · exact ih v hv

theorem exists_info_of_mem_walk {w : Walker} {document : Text} {v : Visit}
    (hv : v ∈ visits (w.walk document)) : ∃ info, v.tags = parseTags info :=
  (depthFirst_iff.2 (walk_eq_found w document)).exists_info v hv

end Walker

/-! ## Where a block is filed -/

/-- Among the tags that name no file are all required ones and no excluded one. -/
def TagFilter.Passes (f : TagFilter) (tags : List Text) : Prop :=
  (∀ tag ∈ f.required, tag ∈ tags ∧ ¬ filePrefix <+: tag) ∧
    ∀ tag ∈ f.excluded, ¬ (tag ∈ tags ∧ ¬ filePrefix <+: tag)

theorem TagFilter.accepts_plainTags_iff {f : TagFilter} {tags : List Text} :
    f.accepts (plainTags tags) = true ↔ f.Passes tags := by
  rw [accepts_iff, Passes]
  simp only [mem_plainTags]

/-- The block goes to the file with this path. -/
def Visit.FiledUnder (f : TagFilter) (path : Text) (v : Visit) : Prop :=
  NamesLast path v.tags ∧ path ≠ [] ∧ f.Passes v.tags

variable {f : TagFilter} {path : Text} {v : Visit}

theorem TagFilter.route?_eq_some_iff {content : Text} :
    f.route? v = some (path, content) ↔ v.FiledUnder f path ∧ content = v.literal := by
  rw [route?_eq, Visit.route?, Visit.FiledUnder, ← accepts_plainTags_iff]
  constructor
  · intro h
    split at h
    · next haccepts =>
        obtain ⟨p, hp, heq⟩ := Option.map_eq_some_iff.1 h
        cases heq
        obtain ⟨hnames, hne⟩ := destination?_eq_some_iff.1 hp
        exact ⟨⟨hnames, hne, haccepts⟩, rfl⟩
    · cases h
  · rintro ⟨⟨hnames, hne, haccepts⟩, rfl⟩
    rw [if_pos haccepts, destination?_eq_some_iff.2 ⟨hnames, hne⟩]
    rfl

theorem TagFilter.route?_of_filed (h : v.FiledUnder f path) :
    f.route? v = some (path, v.literal) := route?_eq_some_iff.2 ⟨h, rfl⟩

instance Visit.decidableFiledUnder : Decidable (v.FiledUnder f path) :=
  decidable_of_iff (f.route? v = some (path, v.literal))
    (TagFilter.route?_eq_some_iff.trans (and_iff_left rfl))

/-! ## The paths and their texts -/

theorem FileMap.mem_entries_ofEntries {content : Text} {entries : List (Text × Text)} :
    (path, content) ∈ (ofEntries entries).entries ↔
      path ∈ entries.map Prod.fst ∧ content = textUnder path entries := by
  rw [entries_ofEntries, List.mem_map]
  constructor
  · rintro ⟨p, hp, heq⟩
    cases heq
    exact ⟨List.mem_eraseDups.1 hp, rfl⟩
  · rintro ⟨hp, rfl⟩
    exact ⟨path, List.mem_eraseDups.2 hp, rfl⟩

theorem TagFilter.mem_map_fst_routes {visited : List Visit} :
    path ∈ (visited.filterMap f.route?).map Prod.fst ↔
      ∃ v ∈ visited, v.FiledUnder f path := by
  rw [List.mem_map]
  constructor
  · rintro ⟨⟨p, content⟩, he, rfl⟩
    obtain ⟨v, hv, hroute⟩ := List.mem_filterMap.1 he
    exact ⟨v, hv, (route?_eq_some_iff.1 hroute).1⟩
  · rintro ⟨v, hv, hfiled⟩
    exact ⟨_, List.mem_filterMap.2 ⟨v, hv, route?_of_filed hfiled⟩, rfl⟩

theorem TagFilter.textUnder_filed (f : TagFilter) (path : Text)
    (visited : List Visit) : textUnder path (visited.filterMap f.route?) =
      (visited.filter fun v => v.FiledUnder f path).flatMap Visit.literal := by
  rw [f.filterMap_route?, textUnder_routes, List.filter_filter]
  refine congrArg (List.flatMap Visit.literal) (List.filter_congr fun v _ => ?_)
  rw [Bool.eq_iff_iff, Bool.and_eq_true, decide_eq_true_eq, decide_eq_true_eq,
    destination?_eq_some_iff, accepts_plainTags_iff, and_assoc, Visit.FiledUnder]

theorem TagFilter.mem_paths_multi {visited : List Visit} :
    path ∈ (f.multi visited).paths ↔ ∃ v ∈ visited, v.FiledUnder f path := by
  rw [multi_eq, FileMap.mem_paths_ofEntries, mem_map_fst_routes]

theorem TagFilter.mem_entries_multi {visited : List Visit} {content : Text} :
    (path, content) ∈ (f.multi visited).entries ↔
      (∃ v ∈ visited, v.FiledUnder f path) ∧ content =
        (visited.filter fun v => v.FiledUnder f path).flatMap Visit.literal := by
  rw [multi_eq, FileMap.mem_entries_ofEntries, mem_map_fst_routes,
    textUnder_filed]

/-- Where the first block comes up that is filed under a path. -/
def firstFiled (f : TagFilter) (visited : List Visit) (path : Text) : Nat :=
  visited.findIdx fun v => v.FiledUnder f path

theorem firstFiled_lt {visited : List Visit} :
    firstFiled f visited path < visited.length ↔ path ∈ (f.multi visited).paths := by
  rw [firstFiled, List.findIdx_lt_length, TagFilter.mem_paths_multi]
  simp only [decide_eq_true_eq]

theorem firstFiled_append {seen : List Visit} (h : path ∈ (f.multi seen).paths)
    (more : List Visit) : firstFiled f (seen ++ more) path = firstFiled f seen path := by
  rw [firstFiled, List.findIdx_append, ← firstFiled, if_pos (firstFiled_lt.2 h)]

theorem firstFiled_concat {seen : List Visit} (h : path ∉ (f.multi seen).paths)
    (hv : v.FiledUnder f path) : firstFiled f (seen ++ [v]) path = seen.length := by
  rw [firstFiled, List.findIdx_append, ← firstFiled, if_neg (mt firstFiled_lt.1 h),
    List.findIdx_cons, decide_eq_true hv]
  exact Nat.zero_add _

/-- Each path stands where the first block under it has come up. A block that is
visited last puts its path behind the others or leaves them as they are. -/
theorem TagFilter.pairwise_paths_multi (f : TagFilter) (visited : List Visit) :
    (f.multi visited).paths.Pairwise fun p q =>
      firstFiled f visited p < firstFiled f visited q := by
  induction visited using List.reverseRecOn with
  | nil => exact .nil
  | append_singleton seen v ih =>
      have hkept : (f.multi seen).paths.Pairwise fun p q =>
          firstFiled f (seen ++ [v]) p < firstFiled f (seen ++ [v]) q := by
        refine ih.imp_of_mem fun hp hq hlt => ?_
        rwa [firstFiled_append hp, firstFiled_append hq]
      cases hroute : f.route? v with
      | none => rwa [multi_concat_none hroute]
      | some route =>
          obtain ⟨path, content⟩ := route
          rw [multi_concat_some hroute, FileMap.paths_append]
          split
          · exact hkept
          · next hnew =>
              refine List.pairwise_append.2 ⟨hkept, List.pairwise_singleton _ _,
                fun p hp q hq => ?_⟩
              cases List.mem_singleton.1 hq
              rw [firstFiled_append hp,
                firstFiled_concat hnew (route?_eq_some_iff.1 hroute).1]
              exact firstFiled_lt.2 hp

/-! ## File tags that decide nothing -/

/-- The tags without those file tags that a later one overrides. -/
def dropOverridden : List Text → List Text
  | [] => []
  | tag :: rest =>
    if (filePath? tag).isSome && rest.any fun t => (filePath? t).isSome then
      dropOverridden rest
    else tag :: dropOverridden rest

theorem plainTags_dropOverridden (tags : List Text) :
    plainTags (dropOverridden tags) = plainTags tags := by
  fun_induction dropOverridden tags with
  | case1 => rfl
  | case2 tag rest hboth ih =>
      obtain ⟨path, hpath⟩ :=
        Option.isSome_iff_exists.1 (Bool.and_eq_true_iff.1 hboth).1
      rw [ih, plainTags, plainTags, List.filter_cons_of_neg (by simp [hpath])]
  | case3 tag rest _ ih =>
      rw [plainTags] at ih ⊢
      rw [List.filter_cons, ih, plainTags, plainTags, List.filter_cons]

/-- Of the file tags only the last one is left. -/
theorem filePaths_dropOverridden (tags : List Text) :
    (dropOverridden tags).filterMap filePath? =
      (tags.filterMap filePath?).getLast?.toList := by
  fun_induction dropOverridden tags with
  | case1 => rfl
  | case2 tag rest hboth ih =>
      obtain ⟨htag, hrest⟩ := Bool.and_eq_true_iff.1 hboth
      obtain ⟨path, hpath⟩ := Option.isSome_iff_exists.1 htag
      have hne : rest.filterMap filePath? ≠ [] := by
        obtain ⟨t, ht, hfile⟩ := List.any_eq_true.1 hrest
        obtain ⟨p, hp⟩ := Option.isSome_iff_exists.1 hfile
        exact List.ne_nil_of_mem (List.mem_filterMap.2 ⟨t, ht, hp⟩)
      rw [ih, List.filterMap_cons_some hpath, List.getLast?_cons_of_ne_nil hne]
  | case3 tag rest hnot ih =>
      cases hpath : filePath? tag with
      | none =>
          rw [List.filterMap_cons_none hpath, ih, List.filterMap_cons_none hpath]
      | some path =>
          have hnone : rest.filterMap filePath? = [] := by
            rw [List.filterMap_eq_nil_iff]
            simpa [hpath] using hnot
          rw [List.filterMap_cons_some hpath, ih, List.filterMap_cons_some hpath, hnone]
          rfl

theorem destination?_dropOverridden (tags : List Text) :
    destination? (dropOverridden tags) = destination? tags := by
  rw [destination?, filePaths_dropOverridden, destination?]
  cases (tags.filterMap filePath?).getLast? <;> rfl

theorem TagFilter.route?_of_dropOverridden {v v' : Visit}
    (hliteral : v.literal = v'.literal)
    (htags : dropOverridden v.tags = dropOverridden v'.tags) :
    f.route? v = f.route? v' := by
  have hroute : v.route? = v'.route? := by
    rw [Visit.route?, Visit.route?, hliteral, ← destination?_dropOverridden v.tags,
      htags, destination?_dropOverridden]
  rw [route?_eq, route?_eq, hroute, ← plainTags_dropOverridden v.tags, htags,
    plainTags_dropOverridden]

theorem TagFilter.multi_congr {visited visited' : List Visit}
    (h : List.Forall₂ (fun v v' => f.route? v = f.route? v') visited visited') :
    f.multi visited = f.multi visited' := by
  rw [multi_eq, multi_eq]
  refine congrArg FileMap.ofEntries ?_
  induction h with
  | nil => rfl
  | cons hroute _ ih => rw [List.filterMap_cons, List.filterMap_cons, hroute, ih]

/-- The map of a document is read off its visited blocks and their tags.

An entry is a path under which some block is filed, with the texts of all such
blocks in the order in which they are visited; the paths are distinct, and in the
order in which their first blocks are visited. A path is not empty and has no
space in it, and one that only blocks name that do not pass is not there. Of a
block with several file tags the last one alone matters: documents whose blocks
differ in the others have the same map. -/
theorem multi_filed (o : ExtractOptions) (document : Text) :
    let visited := visits (o.walker.walk document)
    let files := (o.multi document).value
    (∀ path content, (path, content) ∈ files.entries ↔
      (∃ v ∈ visited, v.FiledUnder o.filter path) ∧ content =
        (visited.filter fun v => v.FiledUnder o.filter path).flatMap Visit.literal) ∧
    files.paths.Nodup ∧
    files.paths.Pairwise (fun p q =>
      firstFiled o.filter visited p < firstFiled o.filter visited q) ∧
    (∀ path ∈ files.paths, path ≠ [] ∧ ' ' ∉ path) ∧
    (∀ path, (∀ v ∈ visited, NamesLast path v.tags → ¬ o.filter.Passes v.tags) →
      path ∉ files.paths) ∧
    ∀ document', List.Forall₂ (fun v v' => v.literal = v'.literal ∧
        dropOverridden v.tags = dropOverridden v'.tags) visited
        (visits (o.walker.walk document')) →
      (o.multi document').value = files := by
  intro visited files
  refine ⟨fun path content => TagFilter.mem_entries_multi,
    files.nodup, o.filter.pairwise_paths_multi visited,
    fun path hpath => ?_, fun path hrejected hpath => ?_, fun document' h => ?_⟩
  · obtain ⟨v, hv, ⟨front, behind, htags, -⟩, hne, -⟩ :=
      TagFilter.mem_paths_multi.1 hpath
    obtain ⟨info, hinfo⟩ := Walker.exists_info_of_mem_walk hv
    have hmem : filePrefix ++ path ∈ parseTags info := by
      rw [← hinfo, htags]
      simp
    exact ⟨hne, fun hspace => space_not_mem_of_mem_parseTags hmem
      (List.mem_append_right _ hspace)⟩
  · obtain ⟨v, hv, hnames, -, hpasses⟩ := TagFilter.mem_paths_multi.1 hpath
    exact hrejected v hv hnames hpasses
  · exact (TagFilter.multi_congr (h.imp fun v v' hsame =>
      TagFilter.route?_of_dropOverridden hsame.1 hsame.2)).symm

/-- What the document of tangling blocks is but for file tags that are overridden. -/
def overriddenDocument : Text :=
  ["```file=x file=b sh file= ci file=b", "A", "```", "```ci file=c", "C", "```",
    "```ci loose file=", "L", "```", "```file=b file=a ci noci", "N", "```",
    "```file=b ci", "B", "```"].flatMap fun line => line.toList ++ ['\n']

theorem multi_filed_tangling :
    let o : ExtractOptions := ⟨⟨["ci".toList], ["noci".toList]⟩, {}⟩
    let visited := visits (o.walker.walk tanglingDocument)
    let files := (o.multi tanglingDocument).value
    files.paths = ["b".toList, "c".toList] ∧
      ("b".toList ≠ [] ∧ ' ' ∉ "b".toList) ∧
      (∀ v ∈ visited, NamesLast "a".toList v.tags → ¬ o.filter.Passes v.tags) ∧
      "a".toList ∉ files.paths ∧
      (o.multi overriddenDocument).value = files := by
  intro o visited files
  obtain ⟨-, -, -, hpaths, hrejected, hsame⟩ := multi_filed o tanglingDocument
  have hfiles : files.paths = ["b".toList, "c".toList] := by decide +kernel
  have ha : ∀ v ∈ visited, NamesLast "a".toList v.tags → ¬ o.filter.Passes v.tags := by
    have hnone : ∀ v ∈ visited, ¬ v.FiledUnder o.filter "a".toList := by decide +kernel
    exact fun v hv hnames hpasses => hnone v hv ⟨hnames, by decide, hpasses⟩
  refine ⟨hfiles, hpaths _ (hfiles ▸ List.mem_cons_self ..), ha,
    hrejected _ ha, hsame _ ?_⟩
  decide +kernel

end Tangle
