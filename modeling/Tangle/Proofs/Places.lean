import Mathlib.Data.List.Infix
import Tangle.Files.Access
import Tangle.Proofs.Pieces

/-!
# The place that a path names

A path that can be followed leads where its parts say, whatever the tree is:
a dot stays, two dots go up, a name goes down. `locate` says so without a tree.
The tree only decides whether the path can be followed, and it can if every
place on the way is a directory (`Passable`).

The directory that a path lies in, as text, has fewer parts of the same path in
front (`parts_parent?`). So the chain of directories that is made for a path
runs through places on the way to it and nowhere else.
-/

namespace Tangle

namespace Path

/-- A path is absolute if nothing stands before its first slash. -/
theorem isAbsolute_eq (p : Text) :
    isAbsolute p = match p.splitOn '/' with
      | [] :: _ :: _ => true
      | _ => false := by
  cases p with
  | nil => rfl
  | cons c p =>
      rw [List.splitOn_cons_eq_if_modifyHead]
      cases hs : p.splitOn '/' with
      | nil => exact absurd hs (List.splitOn_ne_nil '/' p)
      | cons first rest => by_cases hc : c = '/' <;> simp [isAbsolute, hc]

/-! ## The directory that a path lies in -/

theorem dropVoid_suffix (pieces : List Text) : dropVoid pieces <:+ pieces := by
  fun_induction dropVoid pieces with
  | case1 => exact List.suffix_rfl
  | case2 => exact List.suffix_cons ..
  | case3 => exact List.suffix_rfl
  | case4 _ _ _ _ ih => exact ih.trans (List.suffix_cons ..)
  | case5 => exact List.suffix_rfl

theorem dropVoid_head_ne_nil {pieces before : List Text} {piece : Text}
    (h : dropVoid pieces = piece :: before) : piece ≠ [] := by
  fun_induction dropVoid pieces with
  | case1 => cases h
  | case2 => cases h
  | case3 part hpart =>
      cases h
      simpa using hpart
  | case4 _ _ _ _ ih => exact ih h
  | case5 part rest _ hpart =>
      cases h
      rintro rfl
      exact hpart rfl

theorem dropVoid_ne_singleton_nil (pieces : List Text) :
    dropVoid pieces ≠ [[]] := fun h => dropVoid_head_ne_nil h rfl

theorem parts_root : parts ['/'] = [] := by decide

/-- The directory that a path lies in has parts of it, without the last, and
begins where the path begins. -/
theorem parts_parent? {p q : Text} (h : parent? p = some q) (hq : q ≠ []) :
    parts q <+: (parts p).dropLast ∧ isAbsolute q = isAbsolute p := by
  simp only [parent?] at h
  cases hd : dropVoid (p.splitOn '/').reverse with
  | nil => rw [hd] at h; cases h
  | cons last before =>
      rw [hd] at h
      dsimp only at h
      cases ho : dropVoid before with
      | nil =>
          rw [ho] at h
          cases hp : isAbsolute p with
          | false =>
              rw [hp] at h
              cases h
              exact absurd rfl hq
          | true =>
              rw [hp] at h
              cases h
              rw [if_pos rfl, parts_root]
              exact ⟨List.nil_prefix, rfl⟩
      | cons nearest outer =>
          rw [ho] at h
          cases h
          obtain ⟨behind, hbehind⟩ := dropVoid_suffix (p.splitOn '/').reverse
          obtain ⟨between, hbetween⟩ := dropVoid_suffix before
          rw [ho] at hbetween
          rw [hd, ← hbetween] at hbehind
          have hsplit : p.splitOn '/' = (nearest :: outer).reverse ++
              (between.reverse ++ [last] ++ behind.reverse) := by
            rw [← List.reverse_reverse (p.splitOn '/'), ← hbehind]
            simp
          have hfront : (nearest :: outer).reverse <+: p.splitOn '/' :=
            hsplit ▸ List.prefix_append ..
          have hqsplit := Text.splitOn_intercalate_of_prefix hfront
            (by simp [List.reverse_cons])
          constructor
          · have hlast : last ≠ [] := dropVoid_head_ne_nil hd
            rw [parts, hqsplit, parts, hsplit, List.filter_append,
              List.dropLast_append_of_ne_nil]
            · exact List.prefix_append ..
            · intro hnil
              rw [List.filter_eq_nil_iff] at hnil
              have := hnil last (by simp)
              simp [hlast] at this
          · rw [isAbsolute_eq, isAbsolute_eq, hqsplit, hsplit]
            have hsingle : (nearest :: outer).reverse ≠ [[]] := by
              intro hs
              rw [← List.reverse_reverse (nearest :: outer), hs] at ho
              exact dropVoid_ne_singleton_nil before ho
            generalize (nearest :: outer).reverse = front at hsingle hqsplit
            rcases front with _ | ⟨first, _ | ⟨second, rest⟩⟩
            · exact absurd hqsplit (List.splitOn_ne_nil _ _)
            · cases first with
              | nil => exact absurd rfl hsingle
              | cons => rfl
            · cases first <;> rfl

theorem parent?_nil : parent? [] = none := by decide

theorem parts_of_mem_ancestors {n : Nat} {p q : Text} (h : q ∈ ancestors n p)
    (hq : q ≠ []) : parts q <+: parts p ∧ isAbsolute q = isAbsolute p := by
  induction n generalizing p with
  | zero => exact absurd h List.not_mem_nil
  | succ n ih =>
      rw [ancestors] at h
      rcases List.mem_cons.1 h with rfl | h
      · exact ⟨List.prefix_rfl, rfl⟩
      · cases hp : parent? p with
        | none =>
            rw [hp] at h
            exact absurd h List.not_mem_nil
        | some outer =>
            rw [hp] at h
            have hparts := ih h
            by_cases houter : outer = []
            · -- Nothing but itself lies around the empty path.
              subst houter
              cases n with
              | zero => exact absurd h List.not_mem_nil
              | succ n =>
                  rw [Option.map_some, Option.getD_some, ancestors,
                    parent?_nil] at h
                  exact absurd (List.mem_singleton.1 h) hq
            · have hparent := parts_parent? hp houter
              exact ⟨hparts.1.trans (hparent.1.trans (List.dropLast_prefix _)),
                hparts.2.trans hparent.2⟩

end Path

/-- A directory that is made for the sake of another one lies on the way to
it. -/
theorem parts_of_mem_directoryChain {p q : Text} (h : q ∈ directoryChain p) :
    Path.parts q <+: Path.parts p ∧ Path.isAbsolute q = Path.isAbsolute p := by
  obtain ⟨hmem, hparent⟩ := List.mem_filter.1 h
  refine Path.parts_of_mem_ancestors hmem ?_
  rintro rfl
  rw [Path.parent?_nil] at hparent
  cases hparent

namespace FileTree

/-! ## Places -/

/-- The place that one part further is. -/
def step (here : Location) (part : Text) : Location :=
  if part = ['.'] then here
  else if part = ['.', '.'] then here.dropLast
  else here ++ [part]

/-- The place that parts of a path lead to. -/
def descend (here : Location) (parts : List Text) : Location :=
  parts.foldl step here

/-- The place that a path names. -/
def locate (cwd : Location) (p : Text) : Location :=
  descend (origin cwd p) (Path.parts p)

/-- Every place on the way, the last one included, is a directory. -/
def Passable (t : FileTree) (here : Location) (parts : List Text) : Prop :=
  ∀ front, front <+: parts → t.find? (descend here front) = some .directory

/-- The places on a way, from its beginning to its end. -/
def way (here : Location) (parts : List Text) : List Location :=
  parts.inits.map (descend here)

theorem mem_way {here l : Location} {parts : List Text} :
    l ∈ way here parts ↔ ∃ front, front <+: parts ∧ descend here front = l := by
  rw [way, List.mem_map]
  exact exists_congr fun front => and_congr_left' (List.mem_inits front parts)

/-- The directories that a path goes through. -/
def wayTo (cwd : Location) (p : Text) : List Location :=
  way (origin cwd p) (Path.parts p).dropLast

theorem descend_concat (here : Location) (parts : List Text) (part : Text) :
    descend here (parts ++ [part]) = step (descend here parts) part :=
  List.foldl_append ..

theorem Passable.concat {t : FileTree} {here : Location} {parts : List Text}
    {part : Text} (h : t.Passable here parts)
    (hlast : t.find? (descend here (parts ++ [part])) = some .directory) :
    t.Passable here (parts ++ [part]) := by
  intro front hfront
  rcases List.prefix_concat_iff.1 hfront with rfl | hfront
  · exact hlast
  · exact h front hfront

/-- What can be followed leads where its parts say, and all but the last place is
known to be a directory. -/
theorem follow_ok {t : FileTree} {here l : Location} {parts : List Text}
    (h : t.follow here parts = .ok l) :
    l = descend here parts ∧ (parts ≠ [] → t.Passable here parts.dropLast) := by
  induction parts generalizing here with
  | nil =>
      cases h
      exact ⟨rfl, fun hne => absurd rfl hne⟩
  | cons part rest ih =>
      rw [follow] at h
      split at h
      · rename_i hhere
        have hstep : t.follow (step here part) rest = .ok l := by
          rw [step]
          split at h
          · rename_i hdot
            rw [if_pos hdot]
            exact h
          · rename_i hdot
            rw [if_neg hdot]
            split at h
            · rename_i hdots
              rw [if_pos hdots]
              exact h
            · rename_i hdots
              rw [if_neg hdots]
              split at h
              · cases h
              · split at h
                · exact h
                · cases h
        obtain ⟨hl, hrest⟩ := ih hstep
        refine ⟨hl, fun _ front hfront => ?_⟩
        cases front with
        | nil => exact hhere
        | cons first front =>
            cases rest with
            | nil => exact absurd hfront (by simp)
            | cons second rest =>
                rw [List.dropLast_cons_cons, List.cons_prefix_cons] at hfront
                obtain ⟨rfl, hfront⟩ := hfront
                exact hrest (List.cons_ne_nil _ _) front hfront
      · cases h

theorem ne_of_isDots {part : Text} (h : isDots part = false) :
    part ≠ ['.'] ∧ part ≠ ['.', '.'] := by
  simpa [isDots] using h

/-- Where the parts in front lead, the parts behind them are followed from. -/
theorem follow_append (t : FileTree) (here : Location) (front back : List Text) :
    t.follow here (front ++ back) =
      (t.follow here front).bind fun l => t.follow l back := by
  induction front generalizing here with
  | nil => rfl
  | cons part front ih =>
      rw [List.cons_append, follow, follow]
      split
      · split
        · exact ih here
        · split
          · exact ih here.dropLast
          · split
            · rfl
            · split
              · exact ih (here ++ [part])
              · rfl
      · rfl

theorem follow_concat {t : FileTree} {here dir : Location} {front : List Text}
    {name : Text} {entry : Entry} (h : t.follow here front = .ok dir)
    (hdir : t.find? dir = some .directory) (hdots : isDots name = false)
    (hshort : ¬ name.byteLength > maxName)
    (hentry : t.find? (dir ++ [name]) = some entry) :
    t.follow here (front ++ [name]) = .ok (dir ++ [name]) := by
  have hname := ne_of_isDots hdots
  rw [follow_append, h]
  change t.follow dir [name] = _
  rw [follow, hdir]
  dsimp only
  rw [if_neg hname.1, if_neg hname.2, if_neg hshort, hentry]
  rfl

/-- One part can be followed out of a directory. It is a name of something there, or
it is no name. -/
theorem follow_singleton {t : FileTree} {dir l : Location} {part : Text}
    (h : t.follow dir [part] = .ok l) : t.find? dir = some .directory ∧
      (isDots part = false →
        ¬ part.byteLength > maxName ∧ t.find? (dir ++ [part]) ≠ none) := by
  rw [follow] at h
  split at h
  · next hdir =>
      refine ⟨hdir, fun hdots => ?_⟩
      have hname := ne_of_isDots hdots
      rw [if_neg hname.1, if_neg hname.2] at h
      split at h
      · cases h
      · next hshort =>
          split at h
          · next entry hentry => exact ⟨hshort, by rw [hentry]; nofun⟩
          · cases h
  · cases h

theorem lookup_follow {t : FileTree} {cwd l : Location} {p : Text} {entry : Entry}
    (h : t.lookup cwd p = .ok (l, entry)) :
    checkPath p = .ok () ∧ t.follow (origin cwd p) (Path.parts p) = .ok l ∧
      t.find? l = some entry := by
  unfold lookup at h
  split at h
  · cases h
  · rename_i hcheck
    split at h
    · cases h
    · rename_i hfollow
      split at h
      · cases h
      · rename_i hfind
        cases h
        exact ⟨hcheck, hfollow, hfind⟩
      · rename_i hfind
        split at h
        · cases h
        · cases h
          exact ⟨hcheck, hfollow, hfind⟩

/-- What a path leads to is what is at the place that it names. -/
theorem lookup_ok {t : FileTree} {cwd l : Location} {p : Text} {entry : Entry}
    (h : t.lookup cwd p = .ok (l, entry)) :
    l = locate cwd p ∧ t.find? l = some entry ∧
      (Path.parts p ≠ [] →
        t.Passable (origin cwd p) (Path.parts p).dropLast) := by
  obtain ⟨-, hfollow, hfind⟩ := lookup_follow h
  obtain ⟨hl, hway⟩ := follow_ok hfollow
  exact ⟨hl, hfind, hway⟩

/-- A way that could be followed can be followed where all directories are still
there and nothing is missing. -/
theorem follow_of_kept {t t' : FileTree}
    (hdirectories : ∀ l, t.find? l = some .directory → t'.find? l = some .directory)
    (hentries : ∀ l, t.find? l ≠ none → t'.find? l ≠ none) {here l : Location}
    {parts : List Text} (h : t.follow here parts = .ok l) :
    t'.follow here parts = .ok l := by
  induction parts generalizing here with
  | nil => exact h
  | cons part rest ih =>
      rw [follow] at h ⊢
      split at h
      · rename_i hhere
        rw [hdirectories here hhere]
        dsimp only
        split at h
        · rename_i hdot
          rw [if_pos hdot]
          exact ih h
        · rename_i hdot
          rw [if_neg hdot]
          split at h
          · rename_i hdots
            rw [if_pos hdots]
            exact ih h
          · rename_i hdots
            rw [if_neg hdots]
            split at h
            · cases h
            · rename_i hlong
              rw [if_neg hlong]
              split at h
              · rename_i entry hthere
                obtain ⟨entry', hthere'⟩ := Option.ne_none_iff_exists'.1
                  (hentries (here ++ [part]) (by rw [hthere]; nofun))
                rw [hthere']
                exact ih h
              · cases h
      · cases h

theorem lookup_of_kept {t t' : FileTree}
    (hdirectories : ∀ l, t.find? l = some .directory → t'.find? l = some .directory)
    (hentries : ∀ l, t.find? l ≠ none → t'.find? l ≠ none) {cwd : Location}
    {p : Text} {found : Location × Entry} (h : t.lookup cwd p = .ok found)
    (hfile : t'.find? (locate cwd p) = t.find? (locate cwd p)) :
    t'.lookup cwd p = .ok found := by
  unfold lookup at h ⊢
  split at h
  · cases h
  · split at h
    · cases h
    · rename_i hfollow
      have hplace := (follow_ok hfollow).1
      rw [← locate] at hplace
      rw [follow_of_kept hdirectories hentries hfollow]
      dsimp only
      rw [hplace] at h ⊢
      rw [hfile]
      exact h

theorem read_of_kept {t t' : FileTree}
    (hdirectories : ∀ l, t.find? l = some .directory → t'.find? l = some .directory)
    (hentries : ∀ l, t.find? l ≠ none → t'.find? l ≠ none) {cwd : Location}
    {p : Text} {bytes : List UInt8} (h : t.read cwd p = .ok bytes)
    (hfile : t'.find? (locate cwd p) = t.find? (locate cwd p)) :
    t'.read cwd p = .ok bytes := by
  unfold read at h ⊢
  cases hlookup : t.lookup cwd p with
  | error cause => rw [hlookup] at h; cases h
  | ok found =>
      rw [lookup_of_kept hdirectories hentries hlookup hfile]
      rw [hlookup] at h
      exact h

theorem find?_of_read {t : FileTree} {cwd : Location} {p : Text}
    {bytes : List UInt8} (h : t.read cwd p = .ok bytes) :
    ∃ mode, t.find? (locate cwd p) = some (.file mode bytes) := by
  unfold read at h
  split at h
  · cases h
  · cases h
  · rename_i mode content hlookup
    cases h
    obtain ⟨rfl, hfile, _⟩ := lookup_ok hlookup
    exact ⟨mode, hfile⟩

theorem lookupParent_follow {t : FileTree} {cwd dir : Location} {p : Text}
    {name? : Option Text} (h : t.lookupParent cwd p = .ok (dir, name?)) :
    checkPath p = .ok () ∧ name? = (Path.parts p).getLast? ∧
      t.follow (origin cwd p) (Path.parts p).dropLast = .ok dir ∧
      t.find? dir = some .directory := by
  unfold lookupParent at h
  split at h
  · cases h
  · rename_i hcheck
    split at h
    · cases h
    · rename_i hfollow
      split at h
      · rename_i hdir
        cases h
        exact ⟨hcheck, rfl, hfollow, hdir⟩
      · cases h

/-- Where a path's last part would be put: all directories on the way are
there. -/
theorem lookupParent_ok {t : FileTree} {cwd dir : Location} {p : Text}
    {name? : Option Text} (h : t.lookupParent cwd p = .ok (dir, name?)) :
    dir = descend (origin cwd p) (Path.parts p).dropLast ∧
      name? = (Path.parts p).getLast? ∧
      t.Passable (origin cwd p) (Path.parts p).dropLast := by
  obtain ⟨-, hname, hfollow, hfind⟩ := lookupParent_follow h
  obtain ⟨hdir, hway⟩ := follow_ok hfollow
  refine ⟨hdir, hname, ?_⟩
  rcases List.eq_nil_or_concat (Path.parts p).dropLast with hnil | ⟨front, part, heq⟩
  · rw [hnil] at hdir ⊢
    intro front hfront
    rw [List.prefix_nil.1 hfront, ← hdir]
    exact hfind
  · rw [List.concat_eq_append] at heq
    rw [heq] at hdir hway ⊢
    have hfront := hway (by simp)
    rw [List.dropLast_concat] at hfront
    exact hfront.concat (hdir ▸ hfind)

theorem locate_of_name (cwd : Location) {p name : Text}
    (h : (Path.parts p).getLast? = some name) (hname : isDots name = false) :
    locate cwd p =
      descend (origin cwd p) (Path.parts p).dropLast ++ [name] := by
  have hdots := ne_of_isDots hname
  obtain ⟨front, hparts⟩ := List.getLast?_eq_some_iff.1 h
  rw [locate, hparts, descend_concat, step, if_neg hdots.1, if_neg hdots.2,
    List.dropLast_concat]

end FileTree

end Tangle
