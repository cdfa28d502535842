import Mathlib.Data.List.Induction
import Tangle.Extract

/-!
# Texts under paths

A file map is made by adding one text after the other under its path. What it
then has under a path are the texts that were added there, in the order in which
they came, and its paths are in the order in which they first came
(`entries_ofEntries`).

Adding what another map has already grouped comes to the same as adding the
texts it was made of (`appendAll_ofEntries`), although the texts arrive in
another order. That is because a text for a path that is there already can be
moved past the texts for other paths, and a map that groups has every path once.
So the maps of several documents, merged, are the map of all their blocks.
-/

namespace Tangle

/-- The texts that entries have under a path, one after the other. -/
def textUnder (path : Text) (entries : List (Text × Text)) : Text :=
  (entries.filter fun e => e.1 = path).flatMap Prod.snd

@[simp] theorem textUnder_append (path : Text) (es fs : List (Text × Text)) :
    textUnder path (es ++ fs) = textUnder path es ++ textUnder path fs := by
  rw [textUnder, List.filter_append, List.flatMap_append, textUnder, textUnder]

theorem textUnder_singleton_self (path content : Text) :
    textUnder path [(path, content)] = content := by
  simp [textUnder]

theorem textUnder_eq_nil {path : Text} {entries : List (Text × Text)}
    (h : path ∉ entries.map Prod.fst) : textUnder path entries = [] := by
  have hnone : entries.filter (fun e => e.1 = path) = [] := by
    rw [List.filter_eq_nil_iff]
    intro e he hpath
    exact h (List.mem_map.2 ⟨e, he, of_decide_eq_true hpath⟩)
  rw [textUnder, hnone, List.flatMap_nil]

theorem textUnder_of_split {path content : Text}
    {front behind : List (Text × Text)} (hfront : path ∉ front.map Prod.fst)
    (hbehind : path ∉ behind.map Prod.fst) :
    textUnder path (front ++ (path, content) :: behind) = content := by
  rw [List.append_cons, textUnder_append, textUnder_append,
    textUnder_eq_nil hfront, textUnder_eq_nil hbehind, textUnder_singleton_self,
    List.nil_append, List.append_nil]

namespace FileMap

/-- The paths of a map, in order. -/
def paths (files : FileMap) : List Text := files.entries.map Prod.fst

/-- All texts of a map, one after the other. -/
def contents (files : FileMap) : Text := files.entries.flatMap Prod.snd

/-- Adds the texts of all entries under their paths. -/
def appendAll (files : FileMap) (entries : List (Text × Text)) : FileMap :=
  entries.foldl (fun files (path, content) => files.append path content) files

/-- The map that entries make up. -/
def ofEntries (entries : List (Text × Text)) : FileMap := empty.appendAll entries

/-! ## Adding one text -/

section

variable {files : FileMap} {path content : Text}

theorem entries_append_of_not_mem (h : path ∉ files.paths) :
    (files.append path content).entries = files.entries ++ [(path, content)] :=
  addTo_of_not_mem h

theorem entries_append_of_split {front behind : List (Text × Text)} {old : Text}
    (h : files.entries = front ++ (path, old) :: behind)
    (hfront : path ∉ front.map Prod.fst) :
    (files.append path content).entries =
      front ++ (path, old ++ content) :: behind := by
  rw [entries_append, h, addTo_of_split hfront]

theorem paths_append : (files.append path content).paths =
    if path ∈ files.paths then files.paths else files.paths ++ [path] :=
  paths_addTo path content files.entries

theorem mem_paths_append {p : Text} :
    p ∈ (files.append path content).paths ↔ p ∈ files.paths ∨ p = path := by
  rw [paths_append]
  split
  · rename_i h
    exact ⟨Or.inl, fun hp => hp.elim id fun heq => heq ▸ h⟩
  · rw [List.mem_append, List.mem_singleton]

/-- Every path of a map has one entry. -/
theorem not_mem_behind {front behind : List (Text × Text)} {old : Text}
    (h : files.entries = front ++ (path, old) :: behind) :
    path ∉ behind.map Prod.fst := by
  have hnodup := files.nodup
  rw [h, List.map_append, List.map_cons] at hnodup
  exact (List.nodup_cons.1 (List.nodup_append.1 hnodup).2.1).1

theorem textUnder_entries_append (p : Text) :
    textUnder p (files.append path content).entries =
      textUnder p (files.entries ++ [(path, content)]) := by
  by_cases hp : path ∈ files.paths
  · obtain ⟨front, old, behind, heq, hfront⟩ := exists_split_of_mem hp
    have hbehind := not_mem_behind heq
    rw [entries_append_of_split heq hfront, heq]
    by_cases hpath : path = p
    · subst hpath
      rw [textUnder_of_split hfront hbehind, textUnder_append _ (front ++ _),
        textUnder_of_split hfront hbehind, textUnder_singleton_self]
    · simp [textUnder, hpath]
  · rw [entries_append_of_not_mem hp]

/-- Adding a text loses nothing and makes nothing up. -/
theorem contents_append_perm :
    (files.append path content).contents.Perm (files.contents ++ content) := by
  by_cases h : path ∈ files.paths
  · obtain ⟨front, old, behind, heq, hfront⟩ := exists_split_of_mem h
    rw [contents, contents, entries_append_of_split heq hfront, heq]
    simp only [List.flatMap_append, List.flatMap_cons, List.append_assoc]
    exact (List.perm_append_comm.append_left _).append_left _
  · rw [contents, contents, entries_append_of_not_mem h, List.flatMap_append,
      List.flatMap_singleton]

theorem append_append (more : Text) :
    (files.append path content).append path more =
      files.append path (content ++ more) := by
  ext1
  by_cases h : path ∈ files.paths
  · obtain ⟨front, old, behind, heq, hfront⟩ := exists_split_of_mem h
    rw [entries_append_of_split (entries_append_of_split heq hfront) hfront,
      entries_append_of_split heq hfront, List.append_assoc]
  · rw [entries_append_of_split (entries_append_of_not_mem h) h,
      entries_append_of_not_mem h]

theorem addTo_comm {p : Text} (text : Text) {entries : List (Text × Text)}
    (h : path ∈ entries.map Prod.fst) (hne : p ≠ path) :
    addTo p text (addTo path content entries) =
      addTo path content (addTo p text entries) := by
  induction entries with
  | nil => exact absurd h List.not_mem_nil
  | cons e rest ih =>
      obtain ⟨q, old⟩ := e
      by_cases hq : q = path
      · subst hq
        simp only [addTo, if_true, if_neg hne.symm]
      · have hrest : path ∈ rest.map Prod.fst :=
          (List.mem_cons.1 h).resolve_left fun heq => hq heq.symm
        by_cases hp : q = p
        · subst hp
          simp only [addTo, if_true, if_neg hq]
        · simp only [addTo, if_neg hq, if_neg hp, ih hrest]

/-- A text for a path that is there can come before or after a text for another
path. -/
theorem append_comm {p : Text} (text : Text) (h : path ∈ files.paths)
    (hne : p ≠ path) : (files.append path content).append p text =
      (files.append p text).append path content :=
  FileMap.ext (addTo_comm text h hne)

end

/-! ## Adding many -/

theorem appendAll_cons (files : FileMap) (e : Text × Text)
    (entries : List (Text × Text)) : files.appendAll (e :: entries) =
      (files.append e.1 e.2).appendAll entries := rfl

theorem appendAll_append (files : FileMap) (es fs : List (Text × Text)) :
    files.appendAll (es ++ fs) = (files.appendAll es).appendAll fs :=
  List.foldl_append ..

theorem mem_paths_appendAll {files : FileMap} {p : Text}
    {entries : List (Text × Text)} : p ∈ (files.appendAll entries).paths ↔
      p ∈ files.paths ∨ p ∈ entries.map Prod.fst := by
  induction entries generalizing files with
  | nil => simp [appendAll]
  | cons e entries ih =>
      rw [appendAll_cons, ih, mem_paths_append, List.map_cons, List.mem_cons,
        or_assoc]

theorem textUnder_entries_appendAll (files : FileMap) (p : Text)
    (entries : List (Text × Text)) :
    textUnder p (files.appendAll entries).entries =
      textUnder p files.entries ++ textUnder p entries := by
  induction entries generalizing files with
  | nil => exact (List.append_nil _).symm
  | cons e entries ih =>
      rw [appendAll_cons, ih, textUnder_entries_append, textUnder_append,
        List.append_assoc, ← textUnder_append, List.singleton_append]

theorem contents_appendAll_perm (files : FileMap)
    (entries : List (Text × Text)) : (files.appendAll entries).contents.Perm
      (files.contents ++ entries.flatMap Prod.snd) := by
  induction entries generalizing files with
  | nil => rw [List.flatMap_nil, List.append_nil]; exact .refl _
  | cons e entries ih =>
      rw [appendAll_cons, List.flatMap_cons, ← List.append_assoc]
      exact (ih _).trans (contents_append_perm.append_right _)

theorem appendAll_append_comm {files : FileMap} {path content : Text}
    {entries : List (Text × Text)} (h : path ∈ files.paths)
    (hne : path ∉ entries.map Prod.fst) :
    (files.append path content).appendAll entries =
      (files.appendAll entries).append path content := by
  induction entries generalizing files with
  | nil => rfl
  | cons e entries ih =>
      rw [List.map_cons, List.mem_cons, not_or] at hne
      rw [appendAll_cons, append_comm _ h (Ne.symm hne.1), appendAll_cons]
      exact ih (mem_paths_append.2 (.inl h)) hne.2

/-! ## What grouping amounts to -/

theorem textUnder_entries_ofEntries (p : Text) (entries : List (Text × Text)) :
    textUnder p (ofEntries entries).entries = textUnder p entries :=
  textUnder_entries_appendAll empty p entries

theorem mem_paths_ofEntries {p : Text} {entries : List (Text × Text)} :
    p ∈ (ofEntries entries).paths ↔ p ∈ entries.map Prod.fst :=
  mem_paths_appendAll.trans (or_iff_right List.not_mem_nil)

theorem ofEntries_concat (entries : List (Text × Text)) (e : Text × Text) :
    ofEntries (entries ++ [e]) = (ofEntries entries).append e.1 e.2 :=
  appendAll_append ..

/-- One text more in the map that is added is one text more in the sum. -/
theorem appendAll_entries_append (files more : FileMap) (path content : Text) :
    files.appendAll (more.append path content).entries =
      (files.appendAll more.entries).append path content := by
  by_cases hp : path ∈ more.paths
  · obtain ⟨front, old, behind, heq, hfront⟩ := exists_split_of_mem hp
    -- The text that is new follows the old one of its path, and moves behind the
    -- texts of all other paths.
    have hthere (f : FileMap) : path ∈ (f.append path old).paths :=
      mem_paths_append.2 (.inr rfl)
    rw [entries_append_of_split heq hfront, heq, appendAll_append, appendAll_cons,
      ← append_append, appendAll_append_comm (hthere _) (not_mem_behind heq),
      ← appendAll_cons _ (path, old), ← appendAll_append]
  · rw [entries_append_of_not_mem hp, appendAll_append]
    rfl

/-- Adding what has been added to another map already is adding that map and then
the rest. -/
theorem appendAll_entries_appendAll (files more : FileMap)
    (entries : List (Text × Text)) :
    files.appendAll (more.appendAll entries).entries =
      (files.appendAll more.entries).appendAll entries := by
  induction entries generalizing more with
  | nil => rfl
  | cons e entries ih =>
      rw [appendAll_cons, ih, appendAll_entries_append, appendAll_cons]

theorem appendAll_ofEntries (files : FileMap) (entries : List (Text × Text)) :
    files.appendAll (ofEntries entries).entries = files.appendAll entries :=
  appendAll_entries_appendAll files empty entries

/-- Entries whose paths are new come behind those that are there. -/
theorem entries_appendAll_of_nodup {files : FileMap} {entries : List (Text × Text)}
    (h : (files.paths ++ entries.map Prod.fst).Nodup) :
    (files.appendAll entries).entries = files.entries ++ entries := by
  induction entries generalizing files with
  | nil => exact (List.append_nil _).symm
  | cons e entries ih =>
      have hnew : e.1 ∉ files.paths := fun hp =>
        (List.nodup_append.1 h).2.2 _ hp _ (List.mem_cons_self ..) rfl
      have hpaths : (files.append e.1 e.2).paths = files.paths ++ [e.1] := by
        rw [paths_append, if_neg hnew]
      rw [appendAll_cons, ih, entries_append_of_not_mem hnew, List.append_assoc,
        List.singleton_append]
      rw [hpaths, List.append_assoc]
      exact h

/-- A map is the map of its entries. -/
theorem ofEntries_entries (files : FileMap) : ofEntries files.entries = files := by
  have hnodup : (empty.paths ++ files.entries.map Prod.fst).Nodup := files.nodup
  exact FileMap.ext (entries_appendAll_of_nodup hnodup)

theorem foldl_merge_ofEntries {α : Type} (files : FileMap)
    (entries : α → List (Text × Text)) (as : List α) :
    (as.map fun a => ofEntries (entries a)).foldl merge files =
      files.appendAll (as.flatMap entries) := by
  induction as generalizing files with
  | nil => rfl
  | cons a as ih =>
      rw [List.map_cons, List.foldl_cons, ih, List.flatMap_cons, appendAll_append,
        ← appendAll_ofEntries files]
      rfl

/-- The paths of a map are those of its entries in the order in which they first
came. -/
theorem paths_ofEntries (entries : List (Text × Text)) :
    (ofEntries entries).paths = (entries.map Prod.fst).eraseDups := by
  induction entries using List.reverseRecOn with
  | nil => rfl
  | append_singleton entries e ih =>
      rw [ofEntries_concat, paths_append, ih, List.map_append, List.eraseDups_append]
      by_cases he : e.1 ∈ entries.map Prod.fst
      · simp [he, List.removeAll]
      · simp [he, List.removeAll, List.eraseDups_cons]

theorem entries_eq_map (files : FileMap) :
    files.entries = files.paths.map fun p => (p, textUnder p files.entries) := by
  rw [paths, List.map_map]
  refine (List.map_id files.entries).symm.trans (List.map_congr_left fun e he => ?_)
  obtain ⟨path, old⟩ := e
  obtain ⟨front, behind, heq⟩ := List.append_of_mem he
  have hfront : path ∉ front.map Prod.fst := by
    intro hp
    have hnodup := files.nodup
    rw [heq, List.map_append, List.map_cons] at hnodup
    exact (List.nodup_append.1 hnodup).2.2 _ hp _ (List.mem_cons_self ..) rfl
  show (path, old) = (path, textUnder path files.entries)
  rw [heq, textUnder_of_split hfront (not_mem_behind heq)]

/-- The map of some entries: each path where it first came, and under it its
texts in order. -/
theorem entries_ofEntries (entries : List (Text × Text)) :
    (ofEntries entries).entries = (entries.map Prod.fst).eraseDups.map fun p =>
      (p, textUnder p entries) := by
  rw [entries_eq_map, paths_ofEntries]
  refine List.map_congr_left fun p _ => ?_
  rw [textUnder_entries_ofEntries]

theorem contents_ofEntries_perm (entries : List (Text × Text)) :
    (ofEntries entries).contents.Perm (entries.flatMap Prod.snd) :=
  contents_appendAll_perm empty entries

/-! ## Some of the paths -/

theorem filter_addTo (keep : Text → Bool) (path content : Text)
    (entries : List (Text × Text)) :
    (addTo path content entries).filter (fun e => keep e.1) =
      if keep path then addTo path content (entries.filter fun e => keep e.1)
      else entries.filter fun e => keep e.1 := by
  induction entries with
  | nil => cases hkeep : keep path <;> simp [addTo, hkeep]
  | cons e rest ih =>
      obtain ⟨p, old⟩ := e
      by_cases hp : p = path
      · subst hp
        cases hkeep : keep p <;> simp [addTo, hkeep]
      · rw [addTo, if_neg hp]
        cases hkeep : keep p
        · simpa [hkeep] using ih
        · simp only [List.filter_cons, hkeep, if_true, ih, addTo, if_neg hp]
          split <;> rfl

/-- Leaving paths out can come before or after grouping. -/
theorem filter_entries_ofEntries (keep : Text → Bool)
    (entries : List (Text × Text)) :
    (ofEntries entries).entries.filter (fun e => keep e.1) =
      (ofEntries (entries.filter fun e => keep e.1)).entries := by
  induction entries using List.reverseRecOn with
  | nil => rfl
  | append_singleton entries e ih =>
      rw [ofEntries_concat, entries_append, filter_addTo, List.filter_append, ih]
      cases hkeep : keep e.1
      · simp [hkeep]
      · simp only [hkeep, if_true, List.filter_cons, List.filter_nil]
        rw [ofEntries_concat, entries_append]

theorem entries_ofEntries_alike {path : Text} {entries : List (Text × Text)}
    (hne : entries ≠ []) (h : ∀ e ∈ entries, e.1 = path) :
    (ofEntries entries).entries = [(path, entries.flatMap Prod.snd)] := by
  induction entries using List.reverseRecOn with
  | nil => exact absurd rfl hne
  | append_singleton entries e ih =>
      have he : e.1 = path := h e (by simp)
      have hrest : ∀ f ∈ entries, f.1 = path :=
        fun f hf => h f (List.mem_append_left _ hf)
      rw [ofEntries_concat, he, List.flatMap_append, List.flatMap_singleton,
        entries_append]
      by_cases hnil : entries = []
      · subst hnil
        rfl
      · rw [ih hnil hrest]
        exact if_pos rfl

end FileMap

theorem TagFilter.multi_eq (f : TagFilter) (visited : List Visit) :
    f.multi visited = FileMap.ofEntries (visited.filterMap f.route?) := rfl

end Tangle
