import Tangle.Proofs.Destinations

/-!
# One run or two

Two runs that append, one over some documents and the next over others, leave
what a single run over all of them leaves (`MultiRun.split`). They do not write
the same entries: the single run joins what the two write to a file in two parts,
and its files are in another order.

The argument looks at one place at a time. By `Stored.append` the two runs are
one pass over all their entries, and of two passes from the same workspace that
append, all that counts is which paths they write and what arrives at each place
in the end (`Stored.find?_congr`). That the second run reads what the single run
would have read is the other half: nothing it reads has been written, and no way
to it has been cut off.
-/

namespace Tangle

/-! ## Passes over entries -/

namespace Stored

variable {style : WriteStyle} {es fs : List (Text × Text)}
  {w w' w₁ w₂ : Workspace}

/-- Two passes, one after the other, are one. -/
theorem append (h : Stored style es w w₁) (h' : Stored style fs w₁ w₂) :
    Stored style (es ++ fs) w w₂ := by
  obtain ⟨hcwd', humask', hfind', hdirs', hfiles', hplaces', hways'⟩ := h'
  rw [h.cwd] at hcwd' hfind' hplaces' hways'
  rw [h.umask] at humask' hfind'
  refine ⟨hcwd', humask', fun l => ?_,
    fun l hl => hdirs' l (h.keeps_directory l hl), fun l mode old hl => ?_, ?_, ?_⟩
  · rw [hfind', h.find?_eq, List.foldl_append]
  · obtain ⟨content, hmiddle⟩ := h.keeps_file l mode old hl
    exact hfiles' l mode content hmiddle
  · intro e he
    rcases List.mem_append.1 he with he | he
    · obtain ⟨mode, content, hmiddle⟩ := h.places e he
      obtain ⟨content', hlast⟩ := hfiles' _ _ _ hmiddle
      exact ⟨mode, content', hlast⟩
    · exact hplaces' e he
  · intro e he l hl
    rcases List.mem_append.1 he with he | he
    · exact hdirs' l (h.ways e he l hl)
    · exact hways' e he l hl

theorem keeps_entry (h : Stored style es w w') {l : Location}
    (hl : w.tree.find? l ≠ none) : w'.tree.find? l ≠ none := by
  cases hentry : w.tree.find? l with
  | none => exact absurd hentry hl
  | some entry =>
      cases entry with
      | directory => rw [h.keeps_directory l hentry]; nofun
      | file mode old =>
          obtain ⟨content, hfile⟩ := h.keeps_file l mode old hentry
          rw [hfile]
          nofun

theorem read_of_apart (h : Stored style es w w') {p : Text} {bytes : List UInt8}
    (hread : w.tree.read w.cwd p = .ok bytes)
    (hapart : ∀ e ∈ es, FileTree.locate w.cwd e.1 ≠ FileTree.locate w.cwd p) :
    w'.tree.read w'.cwd p = .ok bytes := by
  obtain ⟨mode, hfile⟩ := FileTree.find?_of_read hread
  obtain ⟨content, hkept⟩ := h.keeps_file _ mode bytes hfile
  -- It is still a file, so no entry can have needed its place as a directory.
  have hways : ∀ e ∈ es, FileTree.locate w.cwd p ∉ FileTree.wayTo w.cwd e.1 := by
    intro e he hl
    rw [h.ways e he _ hl] at hkept
    cases hkept
  rw [h.cwd]
  exact FileTree.read_of_kept h.keeps_directory (fun _ => h.keeps_entry) hread
    (h.find?_elsewhere (fun e he => (hapart e he).symm) hways)

/-- Passes that append leave the same at every place if they write the same
paths and, taken together, the same texts there. -/
theorem find?_congr (happend : style.policy = .append)
    (h₁ : Stored style es w w₁) (h₂ : Stored style fs w w₂)
    (hpaths : ∀ p, p ∈ es.map Prod.fst ↔ p ∈ fs.map Prod.fst)
    (htexts : ∀ l, (textsAt w.cwd l es).flatten = (textsAt w.cwd l fs).flatten)
    (l : Location) : w₁.tree.find? l = w₂.tree.find? l := by
  have hpair {e : Text × Text} (he : e ∈ es) : ∃ f ∈ fs, f.1 = e.1 :=
    List.mem_map.1 ((hpaths e.1).1 (List.mem_map_of_mem he))
  have hpair' {f : Text × Text} (hf : f ∈ fs) : ∃ e ∈ es, e.1 = f.1 :=
    List.mem_map.1 ((hpaths f.1).2 (List.mem_map_of_mem hf))
  -- A place is a destination, or on the way to one, or neither.
  by_cases hnamed : ∃ e ∈ es, FileTree.locate w.cwd e.1 = l
  · obtain ⟨e, he, rfl⟩ := hnamed
    obtain ⟨f, hf, hpath⟩ := hpair he
    have hfile := h₂.find?_destination hf
    rw [hpath] at hfile
    rw [hfile, h₁.find?_destination he, happend, bytesAfterAll_append,
      bytesAfterAll_append, htexts]
  · by_cases hway : ∃ e ∈ es, l ∈ FileTree.wayTo w.cwd e.1
    · obtain ⟨e, he, hl⟩ := hway
      obtain ⟨f, hf, hpath⟩ := hpair he
      rw [h₁.ways e he l hl, h₂.ways f hf l (hpath ▸ hl)]
    · rw [h₁.find?_elsewhere (fun e he hl => hnamed ⟨e, he, hl.symm⟩)
        (fun e he hl => hway ⟨e, he, hl⟩)]
      refine (h₂.find?_elsewhere (fun f hf hl => ?_) (fun f hf hl => ?_)).symm
      · obtain ⟨e, he, hpath⟩ := hpair' hf
        exact hnamed ⟨e, he, hpath ▸ hl.symm⟩
      · obtain ⟨e, he, hpath⟩ := hpair' hf
        exact hway ⟨e, he, hpath ▸ hl⟩

end Stored

/-! ## Entries that are grouped in one go or in two -/

theorem textsAt_append (cwd l : Location) (es fs : List (Text × Text)) :
    textsAt cwd l (es ++ fs) = textsAt cwd l es ++ textsAt cwd l fs := by
  rw [textsAt, List.filter_append, List.map_append, textsAt, textsAt]

theorem routesAt_append (cwd l : Location) (es fs : List (Text × Text)) :
    routesAt cwd l (es ++ fs) = routesAt cwd l es ++ routesAt cwd l fs :=
  List.filter_append ..

/-- Every place is spelled in one way. -/
def SpelledAlike (cwd : Location) (routes : List (Text × Text)) : Prop :=
  ∀ e ∈ routes, ∀ f ∈ routes,
    FileTree.locate cwd e.1 = FileTree.locate cwd f.1 → e.1 = f.1

instance (cwd : Location) (routes : List (Text × Text)) :
    Decidable (SpelledAlike cwd routes) :=
  inferInstanceAs (Decidable (∀ e ∈ routes, ∀ f ∈ routes,
    FileTree.locate cwd e.1 = FileTree.locate cwd f.1 → e.1 = f.1))

theorem flatten_textsAt {cwd : Location} {routes : List (Text × Text)}
    (h : SpelledAlike cwd routes) (l : Location) :
    (textsAt cwd l (FileMap.ofEntries routes).entries).flatten =
      (routesAt cwd l routes).flatMap Prod.snd := by
  by_cases hnil : routesAt cwd l routes = []
  · rw [textsAt_entries_ofEntries, hnil]
    rfl
  · obtain ⟨first, hfirst⟩ := List.exists_mem_of_ne_nil _ hnil
    obtain ⟨hmem, hplace⟩ := List.mem_filter.1 hfirst
    have halike : ∀ e ∈ routesAt cwd l routes, e.1 = first.1 := by
      intro e he
      obtain ⟨he, hl⟩ := List.mem_filter.1 he
      exact h e he first hmem
        ((of_decide_eq_true hl).trans (of_decide_eq_true hplace).symm)
    rw [textsAt_entries_ofEntries, FileMap.entries_ofEntries_alike hnil halike]
    exact List.append_nil _

theorem mem_paths_of_two {p : Text} (routes more : List (Text × Text)) :
    p ∈ (FileMap.ofEntries (routes ++ more)).entries.map Prod.fst ↔
      p ∈ ((FileMap.ofEntries routes).entries ++
        (FileMap.ofEntries more).entries).map Prod.fst := by
  rw [List.map_append, List.mem_append]
  refine FileMap.mem_paths_ofEntries.trans ?_
  rw [List.map_append, List.mem_append]
  exact or_congr FileMap.mem_paths_ofEntries.symm FileMap.mem_paths_ofEntries.symm

/-- Where every place is spelled in one way, what is grouped in two goes brings
the same texts to it. -/
theorem flatten_textsAt_of_two {cwd : Location} {routes more : List (Text × Text)}
    (h : SpelledAlike cwd (routes ++ more)) (l : Location) :
    (textsAt cwd l (FileMap.ofEntries (routes ++ more)).entries).flatten =
      (textsAt cwd l ((FileMap.ofEntries routes).entries ++
        (FileMap.ofEntries more).entries)).flatten := by
  have hfront : SpelledAlike cwd routes := fun e he f hf =>
    h e (List.mem_append_left _ he) f (List.mem_append_left _ hf)
  have hbehind : SpelledAlike cwd more := fun e he f hf =>
    h e (List.mem_append_right _ he) f (List.mem_append_right _ hf)
  rw [flatten_textsAt h, textsAt_append, List.flatten_append,
    flatten_textsAt hfront, flatten_textsAt hbehind, routesAt_append,
    List.flatMap_append]

/-! ## Documents that are read in one go or in two -/

namespace Workspace

variable {w w' : Workspace}

theorem documents_of_append {paths more : List Text} {documents : List Text}
    (h : w.documents (paths ++ more) = .ok documents) :
    ∃ front behind, documents = front ++ behind ∧
      w.documents paths = .ok front ∧ w.documents more = .ok behind := by
  rw [documents_append] at h
  split at h
  · cases h
  · rename_i front hfront
    cases hmore : w.documents more with
    | error e => rw [hmore] at h; cases h
    | ok behind =>
        rw [hmore] at h
        cases h
        exact ⟨front, behind, rfl, hfront, rfl⟩

theorem documents_congr {paths : List Text}
    (h : ∀ p ∈ paths, w'.document p = w.document p) :
    w'.documents paths = w.documents paths := by
  induction paths with
  | nil => rfl
  | cons path paths ih =>
      rw [Workspace.documents, Workspace.documents, h path (List.mem_cons_self ..),
        ih fun p hp => h p (List.mem_cons_of_mem _ hp)]

end Workspace

theorem Stored.documents_of_apart {style : WriteStyle} {es : List (Text × Text)}
    {w w' : Workspace} (h : Stored style es w w') {paths documents : List Text}
    (hd : w.documents paths = .ok documents)
    (hapart : ∀ e ∈ es, ∀ p ∈ paths,
      FileTree.locate w.cwd e.1 ≠ FileTree.locate w.cwd p) :
    w'.documents paths = .ok documents := by
  rw [← hd]
  refine Workspace.documents_congr fun p hp => ?_
  obtain ⟨bytes, hread⟩ := Workspace.exists_documents_iff.1 ⟨documents, hd⟩ p hp
  rw [Workspace.document, Workspace.document, hread,
    h.read_of_apart hread fun e he => hapart e he p hp]

/-! ## The runs -/

/-- Runs that append leave the same tree whether the documents are given in one
command line or in two, one after the other: the same files with the same bytes
and modes, and the same directories.

That asks for two things. A place is always spelled in the same way, since the
single run writes every spelling by itself and so groups what is spelled in two
ways. And no document is written to, since the second run reads what the first has
left. -/
theorem MultiRun.split {A B : List Text} {s : Settings}
    {w merged between final : Workspace} {documents : List Text}
    (happend : s.style.policy = .append)
    (hmerged : MultiRun (A ++ B) s w merged) (hfirst : MultiRun A s w between)
    (hsecond : MultiRun B s between final)
    (hd : w.documents (A ++ B) = .ok documents)
    (halike : SpelledAlike w.cwd (s.options.routed documents))
    (hapart : ∀ e ∈ s.options.routed documents, ∀ p ∈ A ++ B,
      FileTree.locate w.cwd e.1 ≠ FileTree.locate w.cwd p) :
    merged.cwd = final.cwd ∧ ∀ l, merged.tree.find? l = final.tree.find? l := by
  obtain ⟨front, behind, rfl, hfront, hbehind⟩ := Workspace.documents_of_append hd
  obtain ⟨all, hall, hmerged⟩ := hmerged.stored
  obtain ⟨one, hone, hfirst⟩ := hfirst.stored
  obtain ⟨two, htwo, hsecond⟩ := hsecond.stored
  cases hd.symm.trans hall
  cases hfront.symm.trans hone
  have hrouted : s.options.routed (front ++ behind) =
      s.options.routed front ++ s.options.routed behind := List.flatMap_append
  rw [hrouted] at hmerged halike hapart
  -- What the first run writes are routes of its documents, and none of these
  -- leads to a document of the second.
  have hkept : between.documents B = .ok behind := by
    refine hfirst.documents_of_apart hbehind fun e he p hp => ?_
    obtain ⟨route, hroute, hpath⟩ := List.mem_map.1
      (FileMap.mem_paths_ofEntries.1 (List.mem_map_of_mem he))
    rw [← hpath]
    exact hapart route (List.mem_append_left _ hroute) p (List.mem_append_right _ hp)
  cases hkept.symm.trans htwo
  have hboth := hfirst.append hsecond
  refine ⟨hmerged.cwd.trans hboth.cwd.symm, fun l => ?_⟩
  exact hmerged.find?_congr happend hboth (fun _ => mem_paths_of_two ..)
    (flatten_textsAt_of_two halike) l

/-- Two documents send blocks to the same two files, the second one in the other
order. One of the files is there already, the other is made in a new directory. -/
theorem MultiRun.split_twoFiles :
    let first := sendingDocument [("d/x", "A"), ("y", "B")]
    let second := sendingDocument [("y", "C"), ("d/x", "D")]
    let w := filesAtRoot [("a.md".toList, first.toBytes),
      ("b.md".toList, second.toBytes), ("y".toList, Text.toBytes "0\n".toList)]
    let merged := sent ["a.md".toList, "b.md".toList] w
    let between := sent ["a.md".toList] w
    let final := sent ["b.md".toList] between
    MultiRun ["a.md".toList, "b.md".toList] ⟨{}, {}⟩ w merged ∧
      MultiRun ["a.md".toList] ⟨{}, {}⟩ w between ∧
      MultiRun ["b.md".toList] ⟨{}, {}⟩ between final ∧
      SpelledAlike w.cwd (ExtractOptions.routed {} [first, second]) ∧
      (∀ l, merged.tree.find? l = final.tree.find? l) ∧
      merged.tree.find? ["d".toList, "x".toList] =
        some (.file 0o600 (Text.toBytes "A\nD\n".toList)) := by
  intro first second w merged between final
  have hmerged : MultiRun (["a.md".toList] ++ ["b.md".toList]) ⟨{}, {}⟩ w merged :=
    multiRun_sent (by rfl) (by decide +kernel) (by decide +kernel)
  have hfirst : MultiRun ["a.md".toList] ⟨{}, {}⟩ w between :=
    multiRun_sent (by rfl) (by decide +kernel) (by decide +kernel)
  have hsecond : MultiRun ["b.md".toList] ⟨{}, {}⟩ between final :=
    multiRun_sent (by rfl) (by decide +kernel) (by decide +kernel)
  have hd : w.documents (["a.md".toList] ++ ["b.md".toList]) =
      .ok [first, second] := by decide +kernel
  have halike : SpelledAlike w.cwd (ExtractOptions.routed {} [first, second]) := by
    decide +kernel
  have hsame := MultiRun.split rfl hmerged hfirst hsecond hd halike
    (by decide +kernel)
  exact ⟨hmerged, hfirst, hsecond, halike, hsame.2, by decide +kernel⟩

end Tangle
