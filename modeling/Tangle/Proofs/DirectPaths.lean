import Tangle.Proofs.Places

/-!
# Paths straight down from the root

A path that begins at the root and has no dots among its parts names one directory
after the other. The directories that it lies in are found by leaving off parts from
its end (`Path.IsDirect.parts_of_getElem?`), and there are as many of them as it has
parts. It leads to an entry exactly if the entry is there, with directories all the
way down to it (`FileTree.Lies`), and the system takes the path (`FileTree.Taken`). A
path that is too long, or has a name in it that is, leads nowhere, whatever there is
at its end.
-/

namespace Tangle

namespace Path

/-- A path that begins at the root and has no dots among its parts. -/
structure IsDirect (p : Text) : Prop where
  absolute : isAbsolute p = true
  names : ∀ part ∈ parts p, FileTree.isDots part = false

/-! ## The directories that it lies in -/

/-- What is left of the pieces when the last part is taken off. -/
theorem isPrefix_reverse_dropVoid {p last : Text} {before : List Text}
    (h : dropVoid (p.splitOn '/').reverse = last :: before) :
    (dropVoid before).reverse <+: p.splitOn '/' := by
  have hbefore : before <:+ (p.splitOn '/').reverse :=
    (List.suffix_cons last before).trans (h ▸ dropVoid_suffix _)
  rw [← List.reverse_reverse (p.splitOn '/'), List.reverse_prefix]
  exact (dropVoid_suffix before).trans hbefore

/-- The path of the directory is the front of the path. -/
theorem isPrefix_of_parent? {p q : Text} (h : parent? p = some q) : q <+: p := by
  simp only [parent?] at h
  split at h
  · cases h
  · rename_i last before hd
    split at h
    · cases h
      split
      · rename_i habsolute
        obtain ⟨rest, rfl⟩ := List.head?_eq_some_iff.1 (of_decide_eq_true habsolute)
        exact List.prefix_append ['/'] rest
      · exact List.nil_prefix
    · cases h
      exact Text.intercalate_prefix_of_splitOn (isPrefix_reverse_dropVoid hd)

theorem prefix_of_mem_ancestors {n : Nat} {p q : Text} (h : q ∈ ancestors n p) :
    q <+: p := by
  induction n generalizing p with
  | zero => cases h
  | succ n ih =>
      rw [ancestors] at h
      rcases List.mem_cons.1 h with rfl | h
      · exact List.prefix_rfl
      · cases hp : parent? p with
        | none => rw [hp] at h; cases h
        | some outer =>
            rw [hp] at h
            exact (ih h).trans (isPrefix_of_parent? hp)

theorem dropVoid_eq_dropWhile {pieces : List Text} (h : ['.'] ∉ pieces) :
    dropVoid pieces = pieces.dropWhile List.isEmpty := by
  fun_induction dropVoid pieces with
  | case1 => rfl
  | case2 part hpart => rw [List.dropWhile_cons_of_pos hpart]; rfl
  | case3 part hpart => rw [List.dropWhile_cons_of_neg hpart]
  | case4 part rest _ hvoid ih =>
      rw [List.mem_cons, not_or] at h
      have hempty : part.isEmpty = true := by
        simpa [Ne.symm h.1] using hvoid
      rw [List.dropWhile_cons_of_pos hempty, ih h.2]
  | case5 part rest _ hvoid =>
      rw [Bool.or_eq_true, not_or] at hvoid
      rw [List.dropWhile_cons_of_neg hvoid.1]

/-- Pieces that are empty do not count, so they can be left off the end. -/
theorem filter_dropWhile_isEmpty (pieces : List Text) :
    (pieces.dropWhile List.isEmpty).filter (fun piece => !piece.isEmpty) =
      pieces.filter fun piece => !piece.isEmpty := by
  induction pieces with
  | nil => rfl
  | cons piece rest ih =>
      by_cases h : piece.isEmpty
      · rw [List.dropWhile_cons_of_pos h, ih, List.filter_cons_of_neg (by simp [h])]
      · rw [List.dropWhile_cons_of_neg h]

theorem filter_eq_dropVoid {pieces : List Text} (h : ['.'] ∉ pieces) :
    (dropVoid pieces).filter (fun piece => !piece.isEmpty) =
      pieces.filter fun piece => !piece.isEmpty := by
  rw [dropVoid_eq_dropWhile h, filter_dropWhile_isEmpty]

namespace IsDirect

variable {p : Text}

theorem dot_not_mem (h : IsDirect p) : ['.'] ∉ (p.splitOn '/').reverse := by
  rw [List.mem_reverse]
  intro hdot
  have hpart : ['.'] ∈ parts p := List.mem_filter.2 ⟨hdot, rfl⟩
  exact absurd (h.names _ hpart) (by decide)

theorem filter_reverse_splitOn (p : Text) :
    (p.splitOn '/').reverse.filter (fun piece => !piece.isEmpty) = (parts p).reverse := by
  rw [List.filter_reverse, parts]

/-- The root lies in no directory. -/
theorem parent?_root (h : IsDirect p) (hroot : parts p = []) : parent? p = none := by
  have hpieces := filter_eq_dropVoid h.dot_not_mem
  rw [filter_reverse_splitOn, hroot] at hpieces
  simp only [parent?]
  cases hd : dropVoid (p.splitOn '/').reverse with
  | nil => rfl
  | cons last before =>
      rw [hd, List.filter_cons_of_pos (by simp [dropVoid_head_ne_nil hd])] at hpieces
      cases hpieces

/-- Every other path lies in the directory that its parts name without the last. -/
theorem exists_parent? (h : IsDirect p) (hparts : parts p ≠ []) :
    ∃ q, parent? p = some q ∧ IsDirect q ∧ parts q = (parts p).dropLast := by
  have hpieces := filter_eq_dropVoid h.dot_not_mem
  rw [filter_reverse_splitOn] at hpieces
  cases hd : dropVoid (p.splitOn '/').reverse with
  | nil =>
      rw [hd] at hpieces
      exact absurd (List.reverse_eq_nil_iff.1 hpieces.symm) hparts
  | cons last before =>
      obtain ⟨behind, hbehind⟩ := dropVoid_suffix (p.splitOn '/').reverse
      rw [hd] at hbehind
      have hdot : ['.'] ∉ before := fun hmem =>
        h.dot_not_mem (hbehind ▸ List.mem_append_right _ (List.mem_cons_of_mem _ hmem))
      rw [hd, List.filter_cons_of_pos (by simp [dropVoid_head_ne_nil hd]),
        ← filter_eq_dropVoid hdot] at hpieces
      have hlast : (parts p).dropLast =
          ((dropVoid before).filter fun piece => !piece.isEmpty).reverse := by
        rw [← List.reverse_reverse (parts p), ← hpieces, List.reverse_cons,
          List.dropLast_concat]
      cases ho : dropVoid before with
      | nil =>
          have hparent : parent? p = some ['/'] := by
            simp only [parent?, hd, ho, h.absolute, if_true]
          rw [ho] at hlast
          refine ⟨_, hparent, ⟨rfl, ?_⟩, hlast ▸ parts_root⟩
          rw [parts_root]
          exact List.forall_mem_nil _
      | cons nearest outer =>
          have hparent :
              parent? p = some (['/'].intercalate (nearest :: outer).reverse) := by
            simp only [parent?, hd, ho]
          rw [ho] at hlast
          have hfront : (nearest :: outer).reverse <+: p.splitOn '/' :=
            ho ▸ isPrefix_reverse_dropVoid hd
          have hsplit := Text.splitOn_intercalate_of_prefix hfront (by simp)
          have hnames : parts (['/'].intercalate (nearest :: outer).reverse) =
              (parts p).dropLast := by
            rw [parts, hsplit, hlast, List.filter_reverse]
          have hne : ['/'].intercalate (nearest :: outer).reverse ≠ [] := by
            intro hnil
            rw [hnil, List.splitOn_nil] at hsplit
            rw [← List.reverse_reverse (nearest :: outer), ← hsplit] at ho
            exact dropVoid_ne_singleton_nil before ho
          refine ⟨_, hparent, ⟨(parts_parent? hparent hne).2.trans h.absolute, ?_⟩, hnames⟩
          rw [hnames]
          exact fun part hpart => h.names part (List.mem_of_mem_dropLast hpart)

theorem ancestors_eq (h : IsDirect p) (n : Nat) :
    (parts p = [] ∧ ancestors (n + 1) p = [p]) ∨
      ∃ q, IsDirect q ∧ parts q = (parts p).dropLast ∧ parts p ≠ [] ∧
        ancestors (n + 1) p = p :: ancestors n q := by
  by_cases hparts : parts p = []
  · refine .inl ⟨hparts, ?_⟩
    rw [ancestors, h.parent?_root hparts]
    rfl
  · obtain ⟨q, hq, hdirect, hnames⟩ := h.exists_parent? hparts
    refine .inr ⟨q, hdirect, hnames, hparts, ?_⟩
    rw [ancestors, hq]
    rfl

theorem length_ancestors (h : IsDirect p) (n : Nat) :
    (ancestors n p).length = min n ((parts p).length + 1) := by
  induction n generalizing p with
  | zero => rw [ancestors, List.length_nil, Nat.zero_min]
  | succ n ih =>
      rcases h.ancestors_eq n with ⟨hroot, heq⟩ | ⟨q, hq, hnames, hparts, heq⟩
      · rw [heq, hroot, List.length_singleton, List.length_nil]
        omega
      · have hpos := List.length_pos_of_ne_nil hparts
        rw [heq, List.length_cons, ih hq, hnames, List.length_dropLast]
        omega

/-- The directory `k` levels above is named by the parts without the last `k`. -/
theorem parts_of_getElem? (h : IsDirect p) {n k : Nat} {q : Text}
    (hq : (ancestors n p)[k]? = some q) :
    IsDirect q ∧ parts q = (parts p).take ((parts p).length - k) := by
  induction n generalizing p k with
  | zero => cases hq
  | succ n ih =>
      rcases h.ancestors_eq n with ⟨hroot, heq⟩ | ⟨outer, houter, hnames, _, heq⟩
      · rw [heq] at hq
        cases k with
        | zero =>
            cases hq
            rw [hroot]
            exact ⟨h, rfl⟩
        | succ k => cases hq
      · rw [heq] at hq
        cases k with
        | zero =>
            cases hq
            rw [Nat.sub_zero, List.take_length]
            exact ⟨h, rfl⟩
        | succ k =>
            obtain ⟨hdirect, hparts⟩ := ih houter hq
            refine ⟨hdirect, ?_⟩
            rw [hparts, hnames, List.length_dropLast, List.dropLast_eq_take,
              List.take_take]
            congr 1
            omega

end IsDirect

/-! ## Entries of a directory -/

section

variable {name : Text}

theorem mem_join {c : Char} {dir : Text} (h : c ∈ join dir name) :
    c ∈ dir ∨ c = '/' ∨ c ∈ name := by
  rw [join] at h
  split at h
  · exact .inr (.inr h)
  · split at h
    · exact (List.mem_append.1 h).imp_right .inr
    · rcases List.mem_append.1 h with h | h
      · exact .inl h
      · exact .inr (List.mem_cons.1 h)

theorem byteLength_join_le (dir name : Text) :
    (join dir name).byteLength ≤ dir.byteLength + 1 + name.byteLength := by
  have hslash : Text.byteLength ('/' :: name) = 1 + name.byteLength := rfl
  rw [join]
  split
  · omega
  · split
    · rw [Text.byteLength_append]
      omega
    · rw [Text.byteLength_append, hslash, Nat.add_assoc]

theorem isAbsolute_of_notMem (hslash : '/' ∉ name) : isAbsolute name = false := by
  cases name with
  | nil => rfl
  | cons c rest =>
      have hc : c ≠ '/' := fun hc => hslash (hc ▸ List.mem_cons_self ..)
      simp [isAbsolute, hc]

theorem isAbsolute_join (dir : Text) (hslash : '/' ∉ name) :
    isAbsolute (join dir name) = isAbsolute dir := by
  have hrelative := isAbsolute_of_notMem hslash
  rw [join, hrelative, Bool.false_or]
  cases dir with
  | nil => exact hrelative
  | cons c rest =>
      rw [List.isEmpty_cons, if_neg Bool.false_ne_true]
      split <;> rfl

theorem parts_join (dir : Text) (hne : name ≠ []) (hslash : '/' ∉ name) :
    parts (join dir name) = parts dir ++ [name] := by
  have hname : parts name = [name] := by
    rw [parts, List.splitOn_eq_singleton hslash,
      List.filter_cons_of_pos (by simp [hne]), List.filter_nil]
  have hjoined (front : Text) : parts (front ++ '/' :: name) = parts front ++ [name] := by
    have hsplit : (front ++ '/' :: name).splitOn '/' =
        front.splitOn '/' ++ name.splitOn '/' :=
      List.splitOnP_append_cons front name (by decide)
    rw [parts, hsplit, List.filter_append, ← parts, ← parts, hname]
  rw [join, isAbsolute_of_notMem hslash, Bool.false_or]
  split
  · rename_i hempty
    rw [List.isEmpty_iff.1 hempty, hname]
    rfl
  · split
    · rename_i hslashed
      obtain ⟨front, rfl⟩ := List.getLast?_eq_some_iff.1 (of_decide_eq_true hslashed)
      have hbare : parts (front ++ ['/']) = parts front := by
        have hsplit : (front ++ ['/']).splitOn '/' = front.splitOn '/' ++ [[]] :=
          List.splitOnP_append_cons front [] (by decide)
        rw [parts, hsplit, List.filter_append, ← parts]
        exact List.append_nil _
      rw [List.append_assoc, List.singleton_append, hjoined, hbare]
    · exact hjoined dir

end

/-- Entries of a directory are not asked for with a slash at the end. -/
theorem endsInSlash_join {name : Text} (dir : Text) (hne : name ≠ [])
    (hslash : '/' ∉ name) : endsInSlash (join dir name) = false := by
  obtain ⟨front, hfront⟩ : ∃ front, join dir name = front ++ name := by
    rw [join]
    split
    · exact ⟨[], rfl⟩
    · split
      · exact ⟨dir, rfl⟩
      · exact ⟨dir ++ ['/'], by rw [List.append_assoc, List.singleton_append]⟩
  rw [endsInSlash, hfront, List.getLast?_append_of_ne_nil _ hne, decide_eq_false_iff_not]
  exact fun hlast => hslash (List.mem_of_getLast? hlast)

theorem isDirect_join {dir name : Text} (hdir : IsDirect dir) (hne : name ≠ [])
    (hslash : '/' ∉ name) (hdots : FileTree.isDots name = false) :
    IsDirect (join dir name) := by
  refine ⟨(isAbsolute_join dir hslash).trans hdir.absolute, ?_⟩
  rw [parts_join dir hne hslash]
  intro part hpart
  rcases List.mem_append.1 hpart with hpart | hpart
  · exact hdir.names part hpart
  · rw [List.mem_singleton.1 hpart]
    exact hdots

end Path

/-! ## Where it leads -/

namespace FileTree

/-- The system takes the path: it is not too long, nor is any name in it, and there is
no NUL in it. -/
structure Taken (p : Text) : Prop where
  noNul : '\x00' ∉ p
  length : p.byteLength ≤ maxPath
  names : ∀ name ∈ Path.parts p, name.byteLength ≤ maxName

/-- The entry is at the location, and nothing but directories is on the way there. -/
structure Lies (t : FileTree) (l : Location) (entry : Entry) : Prop where
  way : ∀ k < l.length, t.find? (l.take k) = some .directory
  there : t.find? l = some entry

variable {t : FileTree} {l : Location} {p : Text} {entry : Entry}

theorem follow_cons_of_name {here : Location} {name : Text} {rest : List Text}
    (hdots : isDots name = false) (hhere : t.find? here = some .directory)
    (hshort : name.byteLength ≤ maxName) {next : Entry}
    (hnext : t.find? (here ++ [name]) = some next) :
    t.follow here (name :: rest) = t.follow (here ++ [name]) rest := by
  have hname := ne_of_isDots hdots
  rw [follow, hhere]
  dsimp only
  rw [if_neg hname.1, if_neg hname.2, if_neg (Nat.not_lt.2 hshort), hnext]

theorem checkPath_eq_ok_iff : checkPath p = .ok () ↔
    '\x00' ∉ p ∧ p ≠ [] ∧ p.byteLength ≤ maxPath := by
  rw [checkPath]
  split
  · next hnul => exact ⟨nofun, fun h => absurd hnul h.1⟩
  · next hnul =>
      split
      · next hnil => exact ⟨nofun, fun h => absurd hnil h.2.1⟩
      · next hnil =>
          split
          · next hlong => exact ⟨nofun, fun h => absurd hlong (Nat.not_lt.2 h.2.2)⟩
          · next hlong =>
              exact ⟨fun _ => ⟨hnul, hnil, Nat.le_of_not_lt hlong⟩, fun _ => rfl⟩

theorem taken_iff (hp : Path.IsDirect p) :
    Taken p ↔ checkPath p = .ok () ∧ ∀ name ∈ Path.parts p, name.byteLength ≤ maxName := by
  have hne : p ≠ [] := by
    rintro rfl
    cases hp.absolute
  rw [checkPath_eq_ok_iff, and_iff_right hne, and_assoc]
  exact ⟨fun h => ⟨h.noNul, h.length, h.names⟩, fun h => ⟨h.1, h.2.1, h.2.2⟩⟩

/-- Names can be followed if there is a directory at each of them but the last. -/
theorem follow_names (here : Location) {names : List Text}
    (hdots : ∀ name ∈ names, isDots name = false)
    (hshort : ∀ name ∈ names, name.byteLength ≤ maxName)
    (hway : ∀ k < names.length, t.find? (here ++ names.take k) = some .directory)
    (hthere : t.find? (here ++ names) = some entry) :
    t.follow here names = .ok (here ++ names) := by
  induction names generalizing here with
  | nil => rw [List.append_nil, follow]
  | cons name rest ih =>
      have hhere := hway 0 (Nat.succ_pos _)
      rw [List.take_zero, List.append_nil] at hhere
      obtain ⟨next, hnext⟩ : ∃ next, t.find? (here ++ [name]) = some next := by
        cases rest with
        | nil => exact ⟨entry, hthere⟩
        | cons => exact ⟨.directory, hway 1 (by simp)⟩
      rw [follow_cons_of_name (hdots name (List.mem_cons_self ..)) hhere
        (hshort name (List.mem_cons_self ..)) hnext, List.append_cons here name rest]
      refine ih _ (fun n hn => hdots n (List.mem_cons_of_mem _ hn))
        (fun n hn => hshort n (List.mem_cons_of_mem _ hn)) (fun k hk => ?_) ?_
      · rw [← List.append_cons]
        exact hway (k + 1) (Nat.succ_lt_succ hk)
      · rw [← List.append_cons]
        exact hthere

/-- What could be followed has directories on its way and names that are taken. -/
theorem follow_names_ok {here : Location} {names : List Text}
    (hdots : ∀ name ∈ names, isDots name = false)
    (h : t.follow here names = .ok l) :
    l = here ++ names ∧ (∀ name ∈ names, name.byteLength ≤ maxName) ∧
      ∀ k < names.length, t.find? (here ++ names.take k) = some .directory := by
  induction names generalizing here with
  | nil =>
      cases h
      exact ⟨(List.append_nil _).symm, nofun, nofun⟩
  | cons name rest ih =>
      have hname := ne_of_isDots (hdots name (List.mem_cons_self ..))
      rw [follow] at h
      split at h
      · rename_i hhere
        rw [if_neg hname.1, if_neg hname.2] at h
        split at h
        · cases h
        · rename_i hshort
          split at h
          · obtain ⟨hl, hrest, hway⟩ :=
              ih (fun n hn => hdots n (List.mem_cons_of_mem _ hn)) h
            refine ⟨by rw [hl, ← List.append_cons], ?_, fun k hk => ?_⟩
            · exact List.forall_mem_cons.2 ⟨Nat.le_of_not_lt hshort, hrest⟩
            · cases k with
              | zero => rwa [List.take_zero, List.append_nil]
              | succ k =>
                  rw [List.take_succ_cons, List.append_cons]
                  exact hway k (Nat.lt_of_succ_lt_succ hk)
          · cases h
      · cases h

theorem lookup_direct_iff (cwd : Location) (hp : Path.IsDirect p)
    (hslash : Path.endsInSlash p = false) :
    t.lookup cwd p = .ok (l, entry) ↔
      l = Path.parts p ∧ Taken p ∧ t.Lies (Path.parts p) entry := by
  have horigin : origin cwd p = [] := by rw [origin, hp.absolute, if_pos rfl]
  rw [taken_iff hp]
  unfold lookup
  rw [horigin]
  constructor
  · intro h
    split at h
    · cases h
    · rename_i htaken
      split at h
      · cases h
      · rename_i hfollow
        obtain ⟨hl, hshort, hway⟩ := follow_names_ok hp.names hfollow
        rw [List.nil_append] at hl
        subst hl
        rw [hslash] at h
        split at h
        · cases h
        · rename_i hthere
          cases h
          exact ⟨rfl, ⟨htaken, hshort⟩, hway, hthere⟩
        · rename_i hthere
          cases h
          exact ⟨rfl, ⟨htaken, hshort⟩, hway, hthere⟩
  · rintro ⟨rfl, ⟨htaken, hshort⟩, hway, hthere⟩
    rw [htaken, follow_names [] hp.names hshort hway hthere]
    dsimp only
    rw [List.nil_append, hthere, hslash]
    cases entry <;> rfl

theorem holds_direct_iff (cwd : Location) (hp : Path.IsDirect p)
    (hslash : Path.endsInSlash p = false) :
    t.holds cwd p = true ↔ Taken p ∧ ∃ entry, t.Lies (Path.parts p) entry := by
  rw [holds]
  constructor
  · intro h
    cases hlookup : t.lookup cwd p with
    | error e => rw [hlookup] at h; cases h
    | ok found =>
        obtain ⟨-, htaken, hlies⟩ := (lookup_direct_iff cwd hp hslash).1 hlookup
        exact ⟨htaken, _, hlies⟩
  · rintro ⟨htaken, entry, hlies⟩
    rw [(lookup_direct_iff cwd hp hslash).2 ⟨rfl, htaken, hlies⟩]
    rfl

theorem holdsFile_direct_iff (cwd : Location) (hp : Path.IsDirect p)
    (hslash : Path.endsInSlash p = false) :
    t.holdsFile cwd p = true ↔
      Taken p ∧ ∃ mode content, t.Lies (Path.parts p) (.file mode content) := by
  unfold holdsFile
  constructor
  · intro h
    split at h
    · rename_i hlookup
      obtain ⟨-, htaken, hlies⟩ := (lookup_direct_iff cwd hp hslash).1 hlookup
      exact ⟨htaken, _, _, hlies⟩
    · cases h
  · rintro ⟨htaken, mode, content, hlies⟩
    rw [(lookup_direct_iff cwd hp hslash).2 ⟨rfl, htaken, hlies⟩]

/-! ## Names in a directory -/

/-- A name that the system takes. -/
structure IsName (name : Text) : Prop where
  ne_nil : name ≠ []
  noSlash : '/' ∉ name
  noNul : '\x00' ∉ name
  noDots : isDots name = false
  short : ¬ name.byteLength > maxName

theorem IsName.noNul_join {dir name : Text} (hname : IsName name)
    (hnul : '\x00' ∉ dir) : '\x00' ∉ Path.join dir name := by
  intro hmem
  rcases Path.mem_join hmem with hmem | hmem | hmem
  · exact hnul hmem
  · cases hmem
  · exact hname.noNul hmem

/-- The path of a directory with a name behind it is taken if there is room for the
name. -/
theorem IsName.taken_join {dir name : Text} (hname : IsName name)
    (hnul : '\x00' ∉ dir) (hroom : dir.byteLength + 1 + name.byteLength ≤ maxPath)
    (hnames : ∀ part ∈ Path.parts dir, part.byteLength ≤ maxName) :
    Taken (Path.join dir name) := by
  refine ⟨hname.noNul_join hnul, (Path.byteLength_join_le dir name).trans hroom, ?_⟩
  rw [Path.parts_join dir hname.ne_nil hname.noSlash]
  intro part hpart
  rcases List.mem_append.1 hpart with hpart | hpart
  · exact hnames part hpart
  · rw [List.mem_singleton.1 hpart]
    exact Nat.le_of_not_lt hname.short

end FileTree

end Tangle
