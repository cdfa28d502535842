import Tangle.Proofs.Destinations
import Tangle.Proofs.Routing

/-!
# Documents in batches

The maps of documents are merged one after the other, and it is the same whether
they are merged singly or in batches that have been merged before
(`batches_agree`). That is because a map, which has every path once, is made of its
own entries, and adding entries to a map that is then added comes to adding them
last (`FileMap.merge_assoc`). What all of it amounts to is the grouping of the
blocks of all documents.
-/

namespace Tangle

namespace FileMap

/-! ## Merging -/

theorem merge_empty (files : FileMap) : files.merge empty = files := rfl

theorem empty_merge (files : FileMap) : empty.merge files = files :=
  ofEntries_entries files

/-- The map in the middle has every path once, so the texts that the last map adds to
it come to stand behind all that it has under their paths. -/
theorem merge_assoc (first second third : FileMap) :
    (first.merge second).merge third = first.merge (second.merge third) :=
  (appendAll_entries_appendAll first second third.entries).symm

end FileMap

namespace ExtractOptions

/-- The maps of several documents, merged. -/
def merged (o : ExtractOptions) (documents : List Text) : FileMap :=
  (documents.map fun d => (o.multi d).value).foldl FileMap.merge .empty

/-- The texts of several documents, joined. -/
def joined (o : ExtractOptions) (documents : List Text) : Text :=
  (documents.map fun d => (o.single d).value).flatten

/-- The blocks of several documents whose plain tags pass. -/
def accepted (o : ExtractOptions) (documents : List Text) : List Visit :=
  documents.flatMap fun d =>
    (visits (o.walker.walk d)).filter fun v => o.filter.accepts (plainTags v.tags)

theorem routed_eq (o : ExtractOptions) (documents : List Text) :
    o.routed documents = (o.accepted documents).filterMap Visit.route? := by
  rw [accepted, List.filterMap_flatMap, routed]
  simp only [o.filter.filterMap_route?]

theorem entries_merged (o : ExtractOptions) (documents : List Text) :
    (o.merged documents).entries = groupedByDestination (o.accepted documents) := by
  rw [merged, merge_multi, routed_eq, FileMap.entries_ofEntries_routes]

theorem merged_flatten (o : ExtractOptions) (batches : List (List Text)) :
    (batches.map o.merged).foldl FileMap.merge .empty = o.merged batches.flatten := by
  have hmerged : o.merged = fun documents => .ofEntries (o.routed documents) :=
    funext o.merge_multi
  -- merged batches are what their routes come to, and routes are joined in order
  rw [hmerged, FileMap.foldl_merge_ofEntries]
  refine congrArg FileMap.ofEntries ?_
  rw [routed, ← List.flatMap_id, List.flatMap_assoc]
  rfl

theorem joined_flatten (o : ExtractOptions) (batches : List (List Text)) :
    (batches.map o.joined).flatten = o.joined batches.flatten := by
  rw [joined, List.map_flatten, List.flatten_flatten, List.map_map]
  rfl

end ExtractOptions

/-- Documents can be merged in batches.

The maps of any documents, merged, are the grouping of all their accepted blocks,
with every destination once, where it is first met. Merging is associative, and the
empty map changes nothing on either side; what comes of it has every path once, as
every map does. So documents that are split into batches come to what they come to at
once, as maps and as one text. -/
theorem batches_agree (o : ExtractOptions) :
    (∀ documents, let all := o.merged documents
      all.entries = groupedByDestination (o.accepted documents) ∧
      all.paths.Nodup) ∧
    (∀ first second third : FileMap,
      (first.merge second).merge third = first.merge (second.merge third) ∧
      first.merge .empty = first ∧ FileMap.empty.merge first = first ∧
      (first.merge second).paths.Nodup) ∧
    ∀ batches : List (List Text),
      (batches.map o.merged).foldl FileMap.merge .empty = o.merged batches.flatten ∧
      (batches.map o.joined).flatten = o.joined batches.flatten :=
  ⟨fun documents => ⟨o.entries_merged documents, (o.merged documents).nodup⟩,
    fun first second third => ⟨first.merge_assoc second third, first.merge_empty,
      first.empty_merge, (first.merge second).nodup⟩,
    fun batches => ⟨o.merged_flatten batches, o.joined_flatten batches⟩⟩

/-- Three maps that have paths in common, in different orders, and three documents,
of which the last two make up a batch behind an empty one. -/
theorem batches_agree_interleaved :
    let text := fun s : String => s.toList
    let first : FileMap := ⟨[(text "x", text "1"), (text "y", text "2")], by decide⟩
    let second : FileMap := ⟨[(text "y", text "3"), (text "z", text "4")], by decide⟩
    let third : FileMap := ⟨[(text "z", text "5"), (text "x", text "6")], by decide⟩
    let batches := [[sendingDocument [("x", "A"), ("y", "B")]], [],
      [sendingDocument [("z", "C"), ("y", "D")], sendingDocument [("x", "E")]]]
    let all := (batches.map (ExtractOptions.merged {})).foldl FileMap.merge .empty
    (first.merge (second.merge third)).entries = [(text "x", text "16"),
        (text "y", text "23"), (text "z", text "45")] ∧
      all.entries = [(text "x", text "A\nE\n"), (text "y", text "B\nD\n"),
        (text "z", text "C\n")] := by
  intro text first second third batches all
  obtain ⟨hgrouped, hmerge, hbatches⟩ := batches_agree {}
  obtain ⟨hassoc, -⟩ := hmerge first second third
  have hall : all = ExtractOptions.merged {} batches.flatten := (hbatches batches).1
  refine ⟨hassoc ▸ by decide +kernel, ?_⟩
  rw [hall]
  exact (hgrouped batches.flatten).1.trans (by decide +kernel)

end Tangle
