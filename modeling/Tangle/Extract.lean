import Tangle.Walk

/-!
# Extraction

The code blocks that pass the filter either make up one text, or go to the files that their tags
name. Blocks for the same file are joined in the order they were met, within one document and across
several.
-/

namespace Tangle

/-- What to extract. -/
structure ExtractOptions where
  filter : TagFilter := {}
  walker : Walker := {}
  deriving DecidableEq, Repr

/-- Texts under distinct paths, in the order in which the paths were first met. -/
structure FileMap where
  entries : List (Text × Text)
  nodup : (entries.map Prod.fst).Nodup
  deriving DecidableEq, Repr

namespace FileMap

def empty : FileMap := ⟨[], .nil⟩

@[ext] theorem ext {files files' : FileMap} (h : files.entries = files'.entries) :
    files = files' := by
  cases files
  cases files'
  cases h
  rfl

/-- Adds to the end of the text under `path`. A path that is not there comes behind all others. -/
def addTo (path content : Text) : List (Text × Text) → List (Text × Text)
  | [] => [(path, content)]
  | (p, c) :: rest =>
    if p = path then (p, c ++ content) :: rest else (p, c) :: addTo path content rest

theorem addTo_of_not_mem {path content : Text} {entries : List (Text × Text)}
    (h : path ∉ entries.map Prod.fst) :
    addTo path content entries = entries ++ [(path, content)] := by
  induction entries with
  | nil => rfl
  | cons e rest ih =>
    rw [List.map_cons, List.mem_cons, not_or] at h
    rw [addTo, if_neg (Ne.symm h.1), ih h.2, List.cons_append]

theorem addTo_of_split {path content old : Text} {front behind : List (Text × Text)}
    (h : path ∉ front.map Prod.fst) :
    addTo path content (front ++ (path, old) :: behind) =
      front ++ (path, old ++ content) :: behind := by
  induction front with
  | nil => exact if_pos rfl
  | cons e front ih =>
    rw [List.map_cons, List.mem_cons, not_or] at h
    rw [List.cons_append, addTo, if_neg (Ne.symm h.1), ih h.2, List.cons_append]

/-- A path that is there splits the entries at its first entry. -/
theorem exists_split_of_mem {path : Text} {entries : List (Text × Text)}
    (h : path ∈ entries.map Prod.fst) :
    ∃ front old behind, entries = front ++ (path, old) :: behind ∧
      path ∉ front.map Prod.fst := by
  induction entries with
  | nil => exact absurd h List.not_mem_nil
  | cons e rest ih =>
    by_cases he : e.1 = path
    · exact ⟨[], e.2, rest, he ▸ rfl, List.not_mem_nil⟩
    · rw [List.map_cons, List.mem_cons] at h
      obtain ⟨front, old, behind, heq, hfront⟩ := ih (h.resolve_left (Ne.symm he))
      refine ⟨e :: front, old, behind, heq ▸ rfl, ?_⟩
      rw [List.map_cons, List.mem_cons, not_or]
      exact ⟨Ne.symm he, hfront⟩

theorem paths_addTo (path content : Text) (entries : List (Text × Text)) :
    (addTo path content entries).map Prod.fst =
      if path ∈ entries.map Prod.fst then entries.map Prod.fst
      else entries.map Prod.fst ++ [path] := by
  split
  · next h =>
    obtain ⟨front, old, behind, rfl, hfront⟩ := exists_split_of_mem h
    rw [addTo_of_split hfront]
    simp only [List.map_append, List.map_cons]
  · next h => rw [addTo_of_not_mem h, List.map_append, List.map_singleton]

theorem nodup_addTo {path content : Text} {entries : List (Text × Text)}
    (h : (entries.map Prod.fst).Nodup) :
    ((addTo path content entries).map Prod.fst).Nodup := by
  rw [paths_addTo]
  split
  · exact h
  · next hpath =>
    refine List.nodup_append.2 ⟨h, List.nodup_cons.2 ⟨List.not_mem_nil, .nil⟩, ?_⟩
    intro p hp q hq hpq
    exact hpath (List.mem_singleton.1 hq ▸ hpq ▸ hp)

/-- Adds to the end of the text under `path`, which is empty at first. -/
def append (path content : Text) (files : FileMap) : FileMap :=
  ⟨addTo path content files.entries, nodup_addTo files.nodup⟩

@[simp] theorem entries_append (path content : Text) (files : FileMap) :
    (files.append path content).entries = addTo path content files.entries := rfl

/-- Adds every text of `more` to the end of what is there under its path. -/
def merge (files more : FileMap) : FileMap :=
  more.entries.foldl (fun files (path, content) => files.append path content) files

end FileMap

/-- The texts of the visited blocks that pass, one after the other. -/
def TagFilter.single (f : TagFilter) (visited : List Visit) : Text :=
  (visited.filter fun v => f.accepts v.tags).flatMap Visit.literal

/-- Where a block goes, if it names a file and its other tags pass. -/
def TagFilter.route? (f : TagFilter) (v : Visit) : Option (Text × Text) :=
  match destination? v.tags with
  | none => none
  | some path => if f.accepts (plainTags v.tags) then some (path, v.literal) else none

/-- The texts of the visited blocks that pass, under the files they name. -/
def TagFilter.multi (f : TagFilter) (visited : List Visit) : FileMap :=
  (visited.filterMap f.route?).foldl (fun files (path, content) => files.append path content) .empty

/-- A result with the warnings that came up on the way. -/
structure Logged (α : Type) where
  value : α
  warnings : List String

namespace ExtractOptions

/-- The text of all blocks of a document that pass. -/
def single (o : ExtractOptions) (document : Text) : Logged Text :=
  let found := o.walker.walk document
  ⟨o.filter.single (visits found), warnings found⟩

/-- The texts for the files that the blocks of a document name. -/
def multi (o : ExtractOptions) (document : Text) : Logged FileMap :=
  let found := o.walker.walk document
  ⟨o.filter.multi (visits found), warnings found⟩

end ExtractOptions

end Tangle
