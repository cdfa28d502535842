import Tangle.Proofs.Interior
import Tangle.Proofs.Pieces
import Tangle.Tag

/-!
# The grammar of info strings

A tag has no space in it and no blank at its edges (`IsTag`); other blanks may
stand between its characters. An info string spells out tags if there are only
blanks around them, and among the blanks between two of them a space (`Spells`).
These are the tags that are read from it (`parseTags_eq_iff`), so an info string
has one reading, and how the blanks around the tags are made up does not matter.

All of it comes from one law: what is read in front of a space and what is read
behind it have nothing to do with each other (`parseTags_append`).
-/

namespace Tangle

/-! ## Tags and how they are spelled -/

/-- A text that can be a tag: there is something in it, but no space, and its edges
are not blank. -/
structure IsTag (tag : Text) : Prop where
  ne_nil : tag ≠ []
  space_not_mem : ' ' ∉ tag
  not_blank_head : ∀ c ∈ tag.head?, isBlank c = false
  not_blank_last : ∀ c ∈ tag.getLast?, isBlank c = false

theorem isTag_iff {tag : Text} : IsTag tag ↔
    tag ≠ [] ∧ ' ' ∉ tag ∧ tag.head?.all (fun c => !isBlank c) = true ∧
      tag.getLast?.all (fun c => !isBlank c) = true := by
  simp only [Option.all_eq_true, Bool.not_eq_true']
  exact ⟨fun h => ⟨h.1, h.2, h.3, h.4⟩, fun h => ⟨h.1, h.2.1, h.2.2.1, h.2.2.2⟩⟩

instance (tag : Text) : Decidable (IsTag tag) := decidable_of_iff' _ isTag_iff

/-- An info string and the tags that it spells out. -/
inductive Spells : Text → List Text → Prop
  | blank {gap : Text} (hgap : ∀ c ∈ gap, isBlank c = true) : Spells gap []
  | last {lead tag trail : Text} (hlead : ∀ c ∈ lead, isBlank c = true)
      (htag : IsTag tag) (htrail : ∀ c ∈ trail, isBlank c = true) :
      Spells (lead ++ tag ++ trail) [tag]
  | cons {lead tag gap info : Text} {tags : List Text}
      (hlead : ∀ c ∈ lead, isBlank c = true) (htag : IsTag tag)
      (hgap : ∀ c ∈ gap, isBlank c = true) (hinfo : Spells info tags) :
      Spells (lead ++ tag ++ gap ++ ' ' :: info) (tag :: tags)

/-- A text is a piece without spaces, or such a piece and a text with a space
between them. -/
theorem pieces_induction {motive : Text → Prop}
    (piece : ∀ s, ' ' ∉ s → motive s)
    (cons : ∀ s rest, ' ' ∉ s → motive rest → motive (s ++ ' ' :: rest)) :
    ∀ s, motive s := by
  intro s
  have hjoined : [' '].intercalate (s.splitOn ' ') = s := List.intercalate_splitOn ' '
  rw [← hjoined]
  have hpieces : ∀ p ∈ s.splitOn ' ', ' ' ∉ p :=
    fun p hp => Text.not_mem_of_mem_splitOn hp
  have hne : s.splitOn ' ' ≠ [] := List.splitOn_ne_nil ' ' s
  clear hjoined
  generalize s.splitOn ' ' = pieces at hpieces hne
  induction pieces with
  | nil => exact absurd rfl hne
  | cons p ps ih =>
      cases ps with
      | nil =>
          rw [List.intercalate_singleton]
          exact piece p (hpieces p (List.mem_cons_self ..))
      | cons p' ps =>
          rw [List.intercalate_cons_cons, List.append_assoc, List.singleton_append]
          exact cons p _ (hpieces p (List.mem_cons_self ..))
            (ih (fun q hq => hpieces q (List.mem_cons_of_mem _ hq))
              (List.cons_ne_nil _ _))

/-! ## Reading -/

theorem parseTags_append (a b : Text) :
    parseTags (a ++ ' ' :: b) = parseTags a ++ parseTags b := by
  have hsplit : (a ++ ' ' :: b).splitOn ' ' = a.splitOn ' ' ++ b.splitOn ' ' :=
    List.splitOnP_append_cons a b (by decide)
  rw [parseTags, hsplit, List.map_append, List.filter_append, parseTags, parseTags]

theorem parseTags_piece {piece : Text} (h : ' ' ∉ piece) :
    parseTags piece = if piece.trim = [] then [] else [piece.trim] := by
  rw [parseTags, List.splitOn_eq_singleton h, List.map_singleton]
  cases piece.trim <;> rfl

theorem parseTags_of_blank {gap : Text} (hgap : ∀ c ∈ gap, isBlank c = true) :
    parseTags gap = [] := by
  induction gap using pieces_induction with
  | piece s hs =>
      have htrim : s.trim = [] := Text.trim_append (s := []) hgap
      rw [parseTags_piece hs, if_pos htrim]
  | cons s rest hs ih =>
      have htrim : s.trim = [] :=
        Text.trim_append (s := []) fun c hc => hgap c (List.mem_append_left _ hc)
      rw [parseTags_append, parseTags_piece hs, if_pos htrim, List.nil_append]
      exact ih fun c hc => hgap c (by simp [hc])

/-- Blanks in front of an info string do not change what is read. -/
theorem parseTags_lead {lead : Text} (hlead : ∀ c ∈ lead, isBlank c = true)
    (info : Text) : parseTags (lead ++ info) = parseTags info := by
  induction lead using pieces_induction with
  | cons s rest hs ih =>
      -- a space among the blanks sets off what stands in front of it, which is nothing
      have hs' : ∀ c ∈ s, isBlank c = true := fun c hc => hlead c (by simp [hc])
      rw [List.append_assoc, List.cons_append, parseTags_append,
        parseTags_of_blank hs', List.nil_append]
      exact ih fun c hc => hlead c (by simp [hc])
  | piece s hs =>
      induction info using pieces_induction with
      | piece p hp =>
          have hsp : ' ' ∉ s ++ p := by simp [hs, hp]
          rw [parseTags_piece hsp, Text.trim_append_of_blank hlead, parseTags_piece hp]
      | cons p rest hp ih =>
          have hsp : ' ' ∉ s ++ p := by simp [hs, hp]
          rw [← List.append_assoc, parseTags_append, parseTags_piece hsp,
            Text.trim_append_of_blank hlead, ← parseTags_piece hp, parseTags_append]

/-- Blanks behind an info string do not change what is read. -/
theorem parseTags_trail {trail : Text} (htrail : ∀ c ∈ trail, isBlank c = true)
    (info : Text) : parseTags (info ++ trail) = parseTags info := by
  induction info using pieces_induction with
  | cons p rest hp ih =>
      rw [List.append_assoc, List.cons_append, parseTags_append, ih, parseTags_append]
  | piece p hp =>
      induction trail using pieces_induction with
      | piece s hs =>
          have hps : ' ' ∉ p ++ s := by simp [hs, hp]
          rw [parseTags_piece hps, Text.trim_append htrail, parseTags_piece hp]
      | cons s rest hs ih =>
          have hs' : ∀ c ∈ s, isBlank c = true := fun c hc => htrail c (by simp [hc])
          have hrest : ∀ c ∈ rest, isBlank c = true :=
            fun c hc => htrail c (by simp [hc])
          have hps : ' ' ∉ p ++ s := by simp [hs, hp]
          rw [← List.append_assoc, parseTags_append, parseTags_of_blank hrest,
            List.append_nil, parseTags_piece hps, Text.trim_append hs',
            parseTags_piece hp]

theorem IsTag.parseTags_eq {tag : Text} (h : IsTag tag) : parseTags tag = [tag] := by
  rw [parseTags_piece h.space_not_mem,
    Text.trim_eq_self h.not_blank_head h.not_blank_last, if_neg h.ne_nil]

/-- A tag with blanks around it. -/
theorem IsTag.parseTags_padded {lead tag trail : Text} (h : IsTag tag)
    (hlead : ∀ c ∈ lead, isBlank c = true) (htrail : ∀ c ∈ trail, isBlank c = true) :
    parseTags (lead ++ tag ++ trail) = [tag] := by
  rw [parseTags_trail htrail, parseTags_lead hlead, h.parseTags_eq]

theorem Spells.parseTags_eq {info : Text} {tags : List Text} (h : Spells info tags) :
    parseTags info = tags := by
  induction h with
  | blank hgap => exact parseTags_of_blank hgap
  | last hlead htag htrail => exact htag.parseTags_padded hlead htrail
  | cons hlead htag hgap _ ih =>
      rw [parseTags_append, htag.parseTags_padded hlead hgap, ih,
        List.singleton_append]

/-! ## What is read is spelled out -/

/-- What a piece without spaces comes to is a tag, if it comes to anything. -/
theorem isTag_trim {piece : Text} (hspace : ' ' ∉ piece) (hne : piece.trim ≠ []) :
    IsTag piece.trim where
  ne_nil := hne
  space_not_mem := fun h => hspace ((Text.trim_sublist piece).subset h)
  not_blank_head := Text.not_blank_head?_trim
  not_blank_last := Text.not_blank_getLast?_trim

theorem Spells.blank_append {gap info : Text} {tags : List Text}
    (hgap : ∀ c ∈ gap, isBlank c = true) (h : Spells info tags) :
    Spells (gap ++ info) tags := by
  have hjoin {lead : Text} (hlead : ∀ c ∈ lead, isBlank c = true) :
      ∀ c ∈ gap ++ lead, isBlank c = true := fun c hc =>
    (List.mem_append.1 hc).elim (hgap c) (hlead c)
  cases h with
  | blank hinfo => exact .blank (hjoin hinfo)
  | last hlead htag htrail =>
      simp only [← List.append_assoc]
      exact .last (hjoin hlead) htag htrail
  | cons hlead htag hbetween hinfo =>
      simp only [← List.append_assoc]
      exact .cons (hjoin hlead) htag hbetween hinfo

theorem spells_parseTags (info : Text) : Spells info (parseTags info) := by
  induction info using pieces_induction with
  | piece p hp =>
      obtain ⟨lead, trail, hlead, htrail, heq⟩ := Text.exists_eq_trim p
      rw [parseTags_piece hp]
      split
      · next hnil =>
          rw [hnil, List.append_nil] at heq
          rw [heq]
          exact .blank fun c hc => (List.mem_append.1 hc).elim (hlead c) (htrail c)
      · next hne =>
          have hspelled := Spells.last hlead (isTag_trim hp hne) htrail
          rwa [← heq] at hspelled
  | cons p rest hp ih =>
      obtain ⟨lead, trail, hlead, htrail, heq⟩ := Text.exists_eq_trim p
      rw [parseTags_append, parseTags_piece hp]
      split
      · next hnil =>
          rw [hnil, List.append_nil] at heq
          have hblank : ∀ c ∈ p ++ [' '], isBlank c = true := by
            intro c hc
            rw [heq, List.mem_append, List.mem_append, List.mem_singleton] at hc
            rcases hc with (hc | hc) | rfl
            · exact hlead c hc
            · exact htrail c hc
            · rfl
          rw [List.append_cons]
          exact ih.blank_append hblank
      · next hne =>
          have hspelled := Spells.cons hlead (isTag_trim hp hne) htrail ih
          rwa [← heq] at hspelled

theorem parseTags_eq_iff {info : Text} {tags : List Text} :
    parseTags info = tags ↔ Spells info tags :=
  ⟨fun h => h ▸ spells_parseTags info, Spells.parseTags_eq⟩

theorem Spells.isTag {info : Text} {tags : List Text} (h : Spells info tags) :
    ∀ tag ∈ tags, IsTag tag := by
  induction h with
  | blank _ => exact fun _ htag => absurd htag List.not_mem_nil
  | last _ htag _ => exact fun _ hmem => List.mem_singleton.1 hmem ▸ htag
  | cons _ htag _ _ ih =>
      intro t ht
      rcases List.mem_cons.1 ht with rfl | ht
      · exact htag
      · exact ih t ht

theorem isTag_of_mem_parseTags {info tag : Text} (h : tag ∈ parseTags info) :
    IsTag tag := (spells_parseTags info).isTag tag h

theorem space_not_mem_of_mem_parseTags {info tag : Text} (h : tag ∈ parseTags info) :
    ' ' ∉ tag := (isTag_of_mem_parseTags h).space_not_mem

/-! ## Tags that are joined -/

theorem spells_intercalate {tags : List Text} (h : ∀ tag ∈ tags, IsTag tag) :
    Spells ([' '].intercalate tags) tags := by
  have hnone : ∀ c ∈ ([] : Text), isBlank c = true := nofun
  induction tags with
  | nil => exact .blank hnone
  | cons tag tags ih =>
      have htag := h tag (List.mem_cons_self ..)
      have hrest := ih fun t ht => h t (List.mem_cons_of_mem _ ht)
      cases tags with
      | nil =>
          have hlast := Spells.last hnone htag hnone
          rw [List.nil_append, List.append_nil] at hlast
          rwa [List.intercalate_singleton]
      | cons tag' tags =>
          have hcons := Spells.cons hnone htag hnone hrest
          rwa [List.nil_append, List.append_nil] at hcons

/-- Reading an info string gives the tags that it spells out.

So what is read are tags: not empty, without spaces and without blanks at their
edges. What stands in front of a space and what stands behind it are read apart.
Tags with single spaces between them are read as these tags, whatever other blanks
are in them, so joining what has been read and reading it again changes nothing.
Nor do blanks at the ends of an info string or on either side of a space. -/
theorem parseTags_spells :
    (∀ info tags, parseTags info = tags ↔ Spells info tags) ∧
    (∀ info, ∀ tag ∈ parseTags info, IsTag tag) ∧
    (∀ a b, parseTags (a ++ ' ' :: b) = parseTags a ++ parseTags b) ∧
    (∀ tags, (∀ tag ∈ tags, IsTag tag) →
      parseTags ([' '].intercalate tags) = tags) ∧
    (∀ info, parseTags ([' '].intercalate (parseTags info)) = parseTags info) ∧
    ∀ lead trail, (∀ c ∈ lead ++ trail, isBlank c = true) → ∀ a b,
      parseTags (lead ++ a ++ trail) = parseTags a ∧
      parseTags (a ++ lead ++ ' ' :: (trail ++ b)) = parseTags (a ++ ' ' :: b) := by
  refine ⟨fun info tags => parseTags_eq_iff, fun info tag => isTag_of_mem_parseTags,
    parseTags_append, fun tags h => (spells_intercalate h).parseTags_eq,
    fun info => (spells_intercalate fun tag => isTag_of_mem_parseTags).parseTags_eq,
    fun lead trail hblank a b => ?_⟩
  have hlead : ∀ c ∈ lead, isBlank c = true :=
    fun c hc => hblank c (List.mem_append_left _ hc)
  have htrail : ∀ c ∈ trail, isBlank c = true :=
    fun c hc => hblank c (List.mem_append_right _ hc)
  constructor
  · rw [parseTags_trail htrail, parseTags_lead hlead]
  · rw [parseTags_append, parseTags_trail hlead, parseTags_lead htrail, parseTags_append]

/-- Tags with a tab, a line feed and a no-break space between their characters, and
blanks of all kinds around them. -/
theorem parseTags_spells_mixed :
    let tags := ["go\tci".toList, "file=a\nb".toList, "x\u00a0y".toList]
    let gap := "\u2003\t \n".toList
    (∀ tag ∈ tags, IsTag tag) ∧ parseTags ([' '].intercalate tags) = tags ∧
      (∀ c ∈ gap ++ gap, isBlank c = true) ∧
      parseTags ("go\tci".toList ++ gap ++ ' ' :: (gap ++ "sh".toList)) =
        ["go\tci".toList, "sh".toList] := by
  intro tags gap
  obtain ⟨-, -, -, hjoined, -, hgaps⟩ := parseTags_spells
  have htags : ∀ tag ∈ tags, IsTag tag := by decide
  have hblank : ∀ c ∈ gap ++ gap, isBlank c = true := List.all_eq_true.1 (by decide)
  exact ⟨htags, hjoined tags htags, hblank,
    (hgaps gap gap hblank "go\tci".toList "sh".toList).2.trans (by decide)⟩

end Tangle
