import Mathlib.Data.List.Basic
import Tangle.Config
import Tangle.Proofs.OctalNumerals
import Tangle.Proofs.ProperValues

/-!
# Which documents are configurations

A configuration is a table of two sections, and what may stand in them is written down
as two lists of entries (`FilterEntry`, `OutputEntry`). A document is a configuration
if and only if there is nothing else in it (`Grammatical`), so a key that is
misspelt or stands in the wrong place is never passed over.

The sections are records, and two things have to be known about a record: which
entries can be set (`decodeRecord_ok_iff`), and that a field comes from the value under
its own key and from no other (`settled_of_decodeRecord`). No table of a document has a
key twice, so the order in which fields are set does not matter.

Two things that a document may do are left aside (`PlainParts`): a section may be
written as an array of its values, and a policy as a table.
-/

namespace Tangle

namespace Toml.Value

/-- The entries of a table. -/
def entries : Value → List (Text × Value)
  | .table es => es
  | _ => []

def isTable : Value → Bool
  | .table _ => true
  | _ => false

def isString : Value → Bool
  | .string _ => true
  | _ => false

theorem eq_table_of_isTable {v : Value} (h : v.isTable = true) : v = .table v.entries := by
  cases v <;> first | rfl | cases h

theorem exists_eq_string_of_isString {v : Value} (h : v.isString = true) :
    ∃ s, v = .string s := by
  cases v <;> first | exact ⟨_, rfl⟩ | cases h

end Toml.Value

namespace Config

open Toml (Value)

theorem map_eq_ok_iff {α β : Type} {x : Decoded α} {f : α → β} {b : β} :
    x.map f = .ok b ↔ ∃ a, x = .ok a ∧ f a = b := by
  cases x <;> simp [Except.map]

theorem mapError_eq_ok_iff {α ε ε' : Type} {x : Except ε α} {f : ε → ε'} {a : α} :
    x.mapError f = .ok a ↔ x = .ok a := by
  cases x <;> simp [Except.mapError]

theorem bind_eq_ok_iff {α β : Type} {x : Decoded α} {f : α → Decoded β} {b : β} :
    x >>= f = .ok b ↔ ∃ a, x = .ok a ∧ f a = .ok b := by
  cases x with
  | error cause => exact ⟨nofun, nofun⟩
  | ok a => exact ⟨fun h => ⟨a, rfl, h⟩, by rintro ⟨_, ⟨⟩, h⟩; exact h⟩

theorem ok_unique {α : Type} {x : Decoded α} {a b : α} (h : x = .ok a) (h' : x = .ok b) :
    a = b :=
  Except.ok.inj (h.symm.trans h')

/-! ## Records -/

section

variable {α β : Type} {set : α → Text → Value → Decoded α} {entries : List (Text × Value)}

/-- Sets fields one after the other. -/
def setAll (set : α → Text → Value → Decoded α) (r : α) (entries : List (Text × Value)) :
    Decoded α :=
  entries.foldlM (fun r e => set r e.1 e.2) r

theorem setAll_cons_ok_iff {r r' : α} {e : Text × Value} :
    setAll set r (e :: entries) = .ok r' ↔
      ∃ middle, set r e.1 e.2 = .ok middle ∧ setAll set middle entries = .ok r' := by
  rw [setAll, List.foldlM_cons]
  exact bind_eq_ok_iff

theorem decodeRecord_table {name : String} {fields : List String} {dflt : α} :
    decodeRecord name fields set dflt (.table entries) =
      setAll set dflt (sortByKey entries) := rfl

/-- All fields can be set if each of them can, whatever has been set before. -/
theorem setAll_ok_iff {taken : Text → Value → Prop}
    (hset : ∀ e ∈ entries, ∀ r, (∃ r', set r e.1 e.2 = .ok r') ↔ taken e.1 e.2) (r : α) :
    (∃ r', setAll set r entries = .ok r') ↔ ∀ e ∈ entries, taken e.1 e.2 := by
  induction entries generalizing r with
  | nil => exact ⟨fun _ => nofun, fun _ => ⟨r, rfl⟩⟩
  | cons e rest ih =>
      rw [List.forall_mem_cons] at hset
      rw [List.forall_mem_cons, ← hset.1 r]
      constructor
      · rintro ⟨r', h⟩
        obtain ⟨middle, hfirst, hrest⟩ := setAll_cons_ok_iff.1 h
        exact ⟨⟨middle, hfirst⟩, (ih hset.2 middle).1 ⟨r', hrest⟩⟩
      · rintro ⟨⟨middle, hfirst⟩, htaken⟩
        obtain ⟨r', hrest⟩ := (ih hset.2 middle).2 htaken
        exact ⟨r', setAll_cons_ok_iff.2 ⟨middle, hfirst, hrest⟩⟩

theorem decodeRecord_ok_iff {taken : Text → Value → Prop} {name : String}
    {fields : List String} {dflt : α}
    (hset : ∀ e ∈ entries, ∀ r, (∃ r', set r e.1 e.2 = .ok r') ↔ taken e.1 e.2) :
    (∃ r, decodeRecord name fields set dflt (.table entries) = .ok r) ↔
      ∀ e ∈ entries, taken e.1 e.2 := by
  have hmem (e : Text × Value) : e ∈ sortByKey entries ↔ e ∈ entries :=
    (sortByKey_perm entries).mem_iff
  rw [decodeRecord_table, setAll_ok_iff fun e he => hset e ((hmem e).1 he)]
  exact forall_congr' fun e => imp_congr_left (hmem e)

/-- The field under a key is the one that the value under this key writes, and setting
another one leaves it as it is. -/
structure Sets (set : α → Text → Value → Decoded α) (key : Text)
    (writes : Value → β → Prop) (field : α → β) : Prop where
  own : ∀ {r r' v}, set r key v = .ok r' → writes v (field r')
  others : ∀ {r r' k v}, k ≠ key → set r k v = .ok r' → field r' = field r

theorem Sets.of_map {γ : Type} {key : Text} {writes : Value → β → Prop} {field : α → β}
    {decode : Value → Decoded γ} {update : α → γ → α}
    (hset : ∀ r v, set r key v = (decode v).map (update r))
    (hwrites : ∀ {r v x}, decode v = .ok x → writes v (field (update r x)))
    (hothers : ∀ {r r' k v}, k ≠ key → set r k v = .ok r' → field r' = field r) :
    Sets set key writes field where
  own h := by
    rw [hset] at h
    obtain ⟨x, hx, rfl⟩ := map_eq_ok_iff.1 h
    exact hwrites hx
  others := hothers

/-- A setting is the one that is written for it, or its default if nothing is. -/
structure Settled (given : Value → Prop) (writes : Value → β → Prop) (dflt x : β) :
    Prop where
  of_given : ∀ {v}, given v → writes v x
  of_absent : (∀ v, ¬ given v) → x = dflt

variable {key : Text} {writes : Value → β → Prop} {field : α → β}

theorem Settled.imp {given : Value → Prop} {writes writes' : Value → β → Prop}
    {dflt x : β} (h : Settled given writes dflt x)
    (himp : ∀ {v}, given v → writes v x → writes' v x) : Settled given writes' dflt x :=
  ⟨fun hv => himp hv (h.of_given hv), h.of_absent⟩

/-- A setting is settled if a value cannot be written for two. -/
theorem Settled.unique {given : Value → Prop} {writes : Value → β → Prop} {dflt x x' : β}
    (h : Settled given writes dflt x) (h' : Settled given writes dflt x')
    (hwrites : ∀ {v}, writes v x → writes v x' → x = x') : x = x' := by
  by_cases hgiven : ∃ v, given v
  · obtain ⟨v, hv⟩ := hgiven
    exact hwrites (h.of_given hv) (h'.of_given hv)
  · have habsent (v : Value) : ¬ given v := fun hv => hgiven ⟨v, hv⟩
    rw [h.of_absent habsent, h'.of_absent habsent]

theorem settled_of_setAll (hset : Sets set key writes field)
    (hkeys : (entries.map Prod.fst).Nodup) {r r' : α} (h : setAll set r entries = .ok r') :
    Settled (fun v => (key, v) ∈ entries) writes (field r) (field r') := by
  induction entries generalizing r with
  | nil =>
      cases h
      exact ⟨nofun, fun _ => rfl⟩
  | cons e rest ih =>
      obtain ⟨k, w⟩ := e
      rw [List.map_cons, List.nodup_cons] at hkeys
      obtain ⟨middle, hfirst, hrest⟩ := setAll_cons_ok_iff.1 h
      have hsettled := ih hkeys.2 hrest
      by_cases hk : k = key
      · subst hk
        have hother (v : Value) : (k, v) ∉ rest := fun hv =>
          hkeys.1 (List.mem_map.2 ⟨_, hv, rfl⟩)
        have hown := hset.own hfirst
        rw [← hsettled.of_absent hother] at hown
        refine ⟨fun {v} hv => ?_, fun habsent => ?_⟩
        · rcases List.mem_cons.1 hv with hv | hv
          · cases hv
            exact hown
          · exact absurd hv (hother v)
        · exact absurd (List.mem_cons_self ..) (habsent w)
      · rw [hset.others hk hfirst] at hsettled
        have hmem {v : Value} : (key, v) ∈ (k, w) :: rest ↔ (key, v) ∈ rest := by
          rw [List.mem_cons, Prod.mk.injEq, or_iff_right]
          exact fun h => hk h.1.symm
        exact ⟨fun hv => hsettled.of_given (hmem.1 hv),
          fun habsent => hsettled.of_absent fun v hv => habsent v (hmem.2 hv)⟩

theorem settled_of_decodeRecord {name : String} {fields : List String} {dflt r : α}
    (hset : Sets set key writes field) (hkeys : (entries.map Prod.fst).Nodup)
    (h : decodeRecord name fields set dflt (.table entries) = .ok r) :
    Settled (fun v => (key, v) ∈ entries) writes (field dflt) (field r) := by
  rw [decodeRecord_table] at h
  have hperm := sortByKey_perm entries
  have hsettled := settled_of_setAll hset ((hperm.map Prod.fst).nodup_iff.2 hkeys) h
  exact ⟨fun hv => hsettled.of_given (hperm.mem_iff.2 hv),
    fun habsent => hsettled.of_absent fun v hv => habsent v (hperm.mem_iff.1 hv)⟩

/-- A value is given for a key of a section. -/
def Given (entries : List (Text × Value)) (part key : Text) (v : Value) : Prop :=
  ∃ e ∈ entries, e.1 = part ∧ (key, v) ∈ e.2.entries

/-- The fields of a section are settled by the entries of the section. -/
theorem Settled.nested {part : Text} {name : String} {fields : List String} {dflt x : α}
    (hset : Sets set key writes field) (hproper : Value.Proper (.table entries))
    (htable : ∀ e ∈ entries, e.1 = part → e.2.isTable = true)
    (h : Settled (fun v => (part, v) ∈ entries)
      (fun v x => decodeRecord name fields set dflt v = .ok x) dflt x) :
    Settled (Given entries part key) writes (field dflt) (field x) := by
  have hinner {v : Value} (hv : (part, v) ∈ entries) :
      Settled (fun w => (key, w) ∈ v.entries) writes (field dflt) (field x) := by
    obtain ⟨es, rfl⟩ : ∃ es, v = .table es := ⟨_, Value.eq_table_of_isTable (htable _ hv rfl)⟩
    exact settled_of_decodeRecord hset (hproper.of_mem hv).nodup_keys (h.of_given hv)
  constructor
  · rintro v ⟨⟨k, w⟩, he, rfl, hv⟩
    exact (hinner he).of_given hv
  · intro habsent
    by_cases hpart : ∃ v, (part, v) ∈ entries
    · obtain ⟨v, hv⟩ := hpart
      exact (hinner hv).of_absent fun w hw => habsent w ⟨_, hv, rfl, hw⟩
    · rw [h.of_absent fun v hv => hpart ⟨v, hv⟩]

end

/-! ## Values -/

theorem decodeText_eq_ok_iff {v : Value} {s : Text} :
    decodeText v = .ok s ↔ v = .string s := by
  cases v with
  | string s' => rw [decodeText, Except.ok.injEq, Value.string.injEq]
  | _ => exact ⟨nofun, nofun⟩

theorem mapM_decodeText_eq_ok_iff {vs : List Value} {ss : List Text} :
    vs.mapM decodeText = .ok ss ↔ vs = ss.map .string := by
  induction vs generalizing ss with
  | nil =>
      cases ss with
      | nil => exact ⟨fun _ => rfl, fun _ => rfl⟩
      | cons s ss => exact ⟨nofun, nofun⟩
  | cons v vs ih =>
      simp only [List.mapM_cons, bind_eq_ok_iff, decodeText_eq_ok_iff, ih]
      constructor
      · rintro ⟨s, rfl, rest, rfl, ⟨⟩⟩
        rfl
      · intro h
        cases ss with
        | nil => cases h
        | cons s ss =>
            obtain ⟨hv, hvs⟩ := List.cons.inj h
            exact ⟨s, hv, ss, hvs, rfl⟩

theorem decodeTexts_eq_ok_iff {v : Value} {ss : List Text} :
    decodeTexts v = .ok ss ↔ v = .array (ss.map .string) := by
  cases v with
  | array vs => rw [decodeTexts, mapM_decodeText_eq_ok_iff, Value.array.injEq]
  | _ => exact ⟨nofun, nofun⟩

theorem decodeFlag_eq_ok_iff {v : Value} {b : Bool} :
    decodeFlag v = .ok b ↔ v = .boolean b := by
  cases v with
  | boolean b' => rw [decodeFlag, Except.ok.injEq, Value.boolean.injEq]
  | _ => exact ⟨nofun, nofun⟩

theorem decodeDepth_eq_ok_iff {v : Value} {n : Nat} :
    decodeDepth v = .ok n ↔ v = .integer n := by
  cases v with
  | integer i =>
      rw [decodeDepth, Value.integer.injEq]
      split
      · next hi =>
          rw [Except.ok.injEq]
          omega
      · next hi =>
          refine ⟨nofun, fun h => ?_⟩
          omega
  | _ => exact ⟨nofun, nofun⟩

/-- A file mode is written as its bits or as a numeral of its bits. -/
inductive WritesMode : Value → FileMode → Prop
  | bits (mode : FileMode) : WritesMode (.integer mode.bits) mode
  | text {s : Text} {mode : FileMode} (h : FileMode.parse s = .ok mode) :
      WritesMode (.string s) mode

theorem decodeFileMode_eq_ok_iff {v : Value} {mode : FileMode} :
    decodeFileMode v = .ok mode ↔ WritesMode v mode := by
  constructor
  · intro h
    cases v with
    | integer i =>
        rw [decodeFileMode] at h
        split at h
        · next hi =>
            have hbits := FileMode.ofBits_eq_ok_iff.1 (mapError_eq_ok_iff.1 h)
            have hnat : i = mode.bits := by omega
            exact hnat ▸ .bits mode
        · cases h
    | string s => exact .text (mapError_eq_ok_iff.1 h)
    | _ => cases h
  · rintro (_ | hs)
    · have hbits := mode.bits_le
      rw [decodeFileMode, if_pos ⟨by omega, by simp [UInt32.size]; omega⟩]
      exact mapError_eq_ok_iff.2 (FileMode.ofBits_eq_ok_iff.2 rfl)
    · exact mapError_eq_ok_iff.2 hs

theorem ofName?_eq_some_iff {name : Text} {p : WritePolicy} :
    WritePolicy.ofName? name = some p ↔ name = p.name.toList := by
  constructor
  · intro h
    have hfound := List.find?_some h
    exact (of_decide_eq_true hfound).symm
  · rintro rfl
    cases p <;> decide

theorem decodePolicyName_eq_ok_iff {name : Text} {p : WritePolicy} :
    decodePolicyName name = .ok p ↔ name = p.name.toList := by
  rw [← ofName?_eq_some_iff, decodePolicyName]
  cases WritePolicy.ofName? name with
  | none => exact ⟨nofun, nofun⟩
  | some q => rw [Except.ok.injEq, Option.some.injEq]

theorem decodePolicy_eq_ok_iff {v : Value} {p : WritePolicy} (hv : v.isString = true) :
    decodePolicy v = .ok p ↔ v = .string p.name.toList := by
  obtain ⟨s, rfl⟩ := Value.exists_eq_string_of_isString hv
  rw [decodePolicy, decodePolicyName_eq_ok_iff, Value.string.injEq]

/-! ## Sections -/

/-- What may stand in the section on extraction. -/
inductive FilterEntry : Text → Value → Prop
  | tags (ss : List Text) : FilterEntry "tags".toList (.array (ss.map .string))
  | excludeTags (ss : List Text) :
      FilterEntry "exclude-tags".toList (.array (ss.map .string))
  | excludeComments (b : Bool) : FilterEntry "exclude-comments".toList (.boolean b)
  | maxCommentDepth (n : Nat) : FilterEntry "max-comment-depth".toList (.integer n)

/-- What may stand in the section on writing. -/
inductive OutputEntry : Text → Value → Prop
  | modeBits (n : Nat) (h : n ≤ 0o7777) : OutputEntry "file-mode".toList (.integer n)
  | modeText (s : Text) (mode : FileMode) (h : FileMode.parse s = .ok mode) :
      OutputEntry "file-mode".toList (.string s)
  | policy (p : WritePolicy) :
      OutputEntry "write-mode".toList (.string p.name.toList)

section

variable {c c' : FilterConfig} {o o' : OutputConfig} {key : Text} {v : Value}

theorem setFilterField_tags : setFilterField c "tags".toList v =
    (decodeTexts v).map fun x => { c with tags := x } := rfl

theorem setFilterField_excludeTags : setFilterField c "exclude-tags".toList v =
    (decodeTexts v).map fun x => { c with excludeTags := x } := rfl

theorem setFilterField_excludeComments : setFilterField c "exclude-comments".toList v =
    (decodeFlag v).map fun x => { c with excludeComments := x } := rfl

theorem setFilterField_maxCommentDepth : setFilterField c "max-comment-depth".toList v =
    (decodeDepth v).map fun x => { c with maxCommentDepth := some x } := rfl

/-- All that setting a field of the section on extraction can do. -/
theorem setFilterField_ok (h : setFilterField c key v = .ok c') :
    (∃ x, key = "tags".toList ∧ decodeTexts v = .ok x ∧ c' = { c with tags := x }) ∨
    (∃ x, key = "exclude-tags".toList ∧ decodeTexts v = .ok x ∧
      c' = { c with excludeTags := x }) ∨
    (∃ x, key = "exclude-comments".toList ∧ decodeFlag v = .ok x ∧
      c' = { c with excludeComments := x }) ∨
    ∃ x, key = "max-comment-depth".toList ∧ decodeDepth v = .ok x ∧
      c' = { c with maxCommentDepth := some x } := by
  unfold setFilterField at h
  split at h
  · next hkey =>
      obtain ⟨x, hx, rfl⟩ := map_eq_ok_iff.1 h
      exact .inl ⟨x, hkey, hx, rfl⟩
  split at h
  · next hkey =>
      obtain ⟨x, hx, rfl⟩ := map_eq_ok_iff.1 h
      exact .inr (.inl ⟨x, hkey, hx, rfl⟩)
  split at h
  · next hkey =>
      obtain ⟨x, hx, rfl⟩ := map_eq_ok_iff.1 h
      exact .inr (.inr (.inl ⟨x, hkey, hx, rfl⟩))
  split at h
  · next hkey =>
      obtain ⟨x, hx, rfl⟩ := map_eq_ok_iff.1 h
      exact .inr (.inr (.inr ⟨x, hkey, hx, rfl⟩))
  · cases h

theorem setFilterField_ok_iff :
    (∃ c', setFilterField c key v = .ok c') ↔ FilterEntry key v := by
  constructor
  · rintro ⟨c', h⟩
    rcases setFilterField_ok h with
      ⟨x, rfl, hx, -⟩ | ⟨x, rfl, hx, -⟩ | ⟨x, rfl, hx, -⟩ | ⟨x, rfl, hx, -⟩
    · exact decodeTexts_eq_ok_iff.1 hx ▸ .tags x
    · exact decodeTexts_eq_ok_iff.1 hx ▸ .excludeTags x
    · exact decodeFlag_eq_ok_iff.1 hx ▸ .excludeComments x
    · exact decodeDepth_eq_ok_iff.1 hx ▸ .maxCommentDepth x
  · rintro (x | x | x | x)
    · exact ⟨_, setFilterField_tags.trans
        (map_eq_ok_iff.2 ⟨x, decodeTexts_eq_ok_iff.2 rfl, rfl⟩)⟩
    · exact ⟨_, setFilterField_excludeTags.trans
        (map_eq_ok_iff.2 ⟨x, decodeTexts_eq_ok_iff.2 rfl, rfl⟩)⟩
    · exact ⟨_, setFilterField_excludeComments.trans
        (map_eq_ok_iff.2 ⟨x, decodeFlag_eq_ok_iff.2 rfl, rfl⟩)⟩
    · exact ⟨_, setFilterField_maxCommentDepth.trans
        (map_eq_ok_iff.2 ⟨x, decodeDepth_eq_ok_iff.2 rfl, rfl⟩)⟩

/-- Setting a field leaves those under other keys as they are. -/
theorem setFilterField_others (h : setFilterField c key v = .ok c') :
    (key ≠ "tags".toList → c'.tags = c.tags) ∧
    (key ≠ "exclude-tags".toList → c'.excludeTags = c.excludeTags) ∧
    (key ≠ "exclude-comments".toList → c'.excludeComments = c.excludeComments) ∧
    (key ≠ "max-comment-depth".toList → c'.maxCommentDepth = c.maxCommentDepth) := by
  rcases setFilterField_ok h with
    ⟨x, rfl, -, rfl⟩ | ⟨x, rfl, -, rfl⟩ | ⟨x, rfl, -, rfl⟩ | ⟨x, rfl, -, rfl⟩
  · exact ⟨fun hkey => absurd rfl hkey, fun _ => rfl, fun _ => rfl, fun _ => rfl⟩
  · exact ⟨fun _ => rfl, fun hkey => absurd rfl hkey, fun _ => rfl, fun _ => rfl⟩
  · exact ⟨fun _ => rfl, fun _ => rfl, fun hkey => absurd rfl hkey, fun _ => rfl⟩
  · exact ⟨fun _ => rfl, fun _ => rfl, fun _ => rfl, fun hkey => absurd rfl hkey⟩

theorem setOutputField_fileMode : setOutputField o "file-mode".toList v =
    (decodeFileMode v).map fun x => { o with fileMode := x } := rfl

theorem setOutputField_writeMode : setOutputField o "write-mode".toList v =
    (decodePolicy v).map fun x => { o with writeMode := x } := rfl

/-- All that setting a field of the section on writing can do. -/
theorem setOutputField_ok (h : setOutputField o key v = .ok o') :
    (∃ x, key = "file-mode".toList ∧ decodeFileMode v = .ok x ∧
      o' = { o with fileMode := x }) ∨
    ∃ x, key = "write-mode".toList ∧ decodePolicy v = .ok x ∧
      o' = { o with writeMode := x } := by
  unfold setOutputField at h
  split at h
  · next hkey =>
      obtain ⟨x, hx, rfl⟩ := map_eq_ok_iff.1 h
      exact .inl ⟨x, hkey, hx, rfl⟩
  split at h
  · next hkey =>
      obtain ⟨x, hx, rfl⟩ := map_eq_ok_iff.1 h
      exact .inr ⟨x, hkey, hx, rfl⟩
  · cases h

/-- A policy may also be written as a table, which is left open here. -/
theorem setOutputField_ok_iff (hv : key = "write-mode".toList → v.isString = true) :
    (∃ o', setOutputField o key v = .ok o') ↔ OutputEntry key v := by
  constructor
  · rintro ⟨o', h⟩
    rcases setOutputField_ok h with ⟨x, rfl, hx, -⟩ | ⟨x, rfl, hx, -⟩
    · rcases decodeFileMode_eq_ok_iff.1 hx with _ | hs
      · exact .modeBits _ x.bits_le
      · exact .modeText _ x hs
    · exact (decodePolicy_eq_ok_iff (hv rfl)).1 hx ▸ .policy x
  · rintro (⟨n, hn⟩ | ⟨s, mode, hs⟩ | p)
    · exact ⟨_, setOutputField_fileMode.trans (map_eq_ok_iff.2
        ⟨⟨n, hn⟩, decodeFileMode_eq_ok_iff.2 (.bits ⟨n, hn⟩), rfl⟩)⟩
    · exact ⟨_, setOutputField_fileMode.trans (map_eq_ok_iff.2
        ⟨mode, decodeFileMode_eq_ok_iff.2 (.text hs), rfl⟩)⟩
    · exact ⟨_, setOutputField_writeMode.trans (map_eq_ok_iff.2
        ⟨p, (decodePolicy_eq_ok_iff rfl).2 rfl, rfl⟩)⟩

theorem setOutputField_others (h : setOutputField o key v = .ok o') :
    (key ≠ "file-mode".toList → o'.fileMode = o.fileMode) ∧
    (key ≠ "write-mode".toList → o'.writeMode = o.writeMode) := by
  rcases setOutputField_ok h with ⟨x, rfl, -, rfl⟩ | ⟨x, rfl, -, rfl⟩
  · exact ⟨fun hkey => absurd rfl hkey, fun _ => rfl⟩
  · exact ⟨fun _ => rfl, fun hkey => absurd rfl hkey⟩

theorem sets_tags : Sets setFilterField "tags".toList
    (fun v ss => v = .array (ss.map .string)) FilterConfig.tags :=
  .of_map (fun _ _ => setFilterField_tags) decodeTexts_eq_ok_iff.1
    fun hk h => (setFilterField_others h).1 hk

theorem sets_excludeTags : Sets setFilterField "exclude-tags".toList
    (fun v ss => v = .array (ss.map .string)) FilterConfig.excludeTags :=
  .of_map (fun _ _ => setFilterField_excludeTags) decodeTexts_eq_ok_iff.1
    fun hk h => (setFilterField_others h).2.1 hk

theorem sets_excludeComments : Sets setFilterField "exclude-comments".toList
    (fun v b => v = .boolean b) FilterConfig.excludeComments :=
  .of_map (fun _ _ => setFilterField_excludeComments) decodeFlag_eq_ok_iff.1
    fun hk h => (setFilterField_others h).2.2.1 hk

theorem sets_maxCommentDepth : Sets setFilterField "max-comment-depth".toList
    (fun v d => ∃ n : Nat, v = .integer n ∧ d = some n) FilterConfig.maxCommentDepth :=
  .of_map (fun _ _ => setFilterField_maxCommentDepth)
    (fun h => ⟨_, decodeDepth_eq_ok_iff.1 h, rfl⟩)
    fun hk h => (setFilterField_others h).2.2.2 hk

theorem sets_fileMode : Sets setOutputField "file-mode".toList WritesMode
    OutputConfig.fileMode :=
  .of_map (fun _ _ => setOutputField_fileMode) decodeFileMode_eq_ok_iff.1
    fun hk h => (setOutputField_others h).1 hk

theorem sets_writeMode : Sets setOutputField "write-mode".toList
    (fun v p => decodePolicy v = .ok p) OutputConfig.writeMode :=
  .of_map (fun _ _ => setOutputField_writeMode) id
    fun hk h => (setOutputField_others h).2 hk

end

/-! ## The document -/

abbrev decodeFilter : Value → Decoded FilterConfig :=
  decodeRecord "FilterConfig" filterFields setFilterField {}

abbrev decodeOutput : Value → Decoded OutputConfig :=
  decodeRecord "OutputConfig" outputFields setOutputField {}

/-- A section under its name. -/
def SectionEntry (key : Text) (v : Value) : Prop :=
  (key = "filter".toList ∧ ∃ x, decodeFilter v = .ok x) ∨
  (key = "output".toList ∧ ∃ x, decodeOutput v = .ok x)

section

variable {c c' : Config} {key : Text} {v : Value}

theorem setSection_filter : setSection c "filter".toList v =
    (decodeFilter v).map fun x => { c with filter := x } := rfl

theorem setSection_output : setSection c "output".toList v =
    (decodeOutput v).map fun x => { c with output := x } := rfl

/-- All that setting a section can do. -/
theorem setSection_ok (h : setSection c key v = .ok c') :
    (∃ x, key = "filter".toList ∧ decodeFilter v = .ok x ∧ c' = { c with filter := x }) ∨
    ∃ x, key = "output".toList ∧ decodeOutput v = .ok x ∧ c' = { c with output := x } := by
  unfold setSection at h
  split at h
  · next hkey =>
      obtain ⟨x, hx, rfl⟩ := map_eq_ok_iff.1 h
      exact .inl ⟨x, hkey, hx, rfl⟩
  split at h
  · next hkey =>
      obtain ⟨x, hx, rfl⟩ := map_eq_ok_iff.1 h
      exact .inr ⟨x, hkey, hx, rfl⟩
  · cases h

theorem setSection_ok_iff : (∃ c', setSection c key v = .ok c') ↔ SectionEntry key v := by
  constructor
  · rintro ⟨c', h⟩
    rcases setSection_ok h with ⟨x, rfl, hx, -⟩ | ⟨x, rfl, hx, -⟩
    · exact .inl ⟨rfl, x, hx⟩
    · exact .inr ⟨rfl, x, hx⟩
  · rintro (⟨rfl, x, hx⟩ | ⟨rfl, x, hx⟩)
    · exact ⟨_, setSection_filter.trans (map_eq_ok_iff.2 ⟨x, hx, rfl⟩)⟩
    · exact ⟨_, setSection_output.trans (map_eq_ok_iff.2 ⟨x, hx, rfl⟩)⟩

theorem sets_filter : Sets setSection "filter".toList (fun v x => decodeFilter v = .ok x)
    Config.filter := by
  refine .of_map (fun _ _ => setSection_filter) id fun hk h => ?_
  rcases setSection_ok h with ⟨x, rfl, -, rfl⟩ | ⟨x, rfl, -, rfl⟩
  · exact absurd rfl hk
  · rfl

theorem sets_output : Sets setSection "output".toList (fun v x => decodeOutput v = .ok x)
    Config.output := by
  refine .of_map (fun _ _ => setSection_output) id fun hk h => ?_
  rcases setSection_ok h with ⟨x, rfl, -, rfl⟩ | ⟨x, rfl, -, rfl⟩
  · rfl
  · exact absurd rfl hk

end

section

variable {entries : List (Text × Value)} {c : Config}

/-- The sections that there are are tables, and the policy is a string if there is
one. -/
structure PlainParts (entries : List (Text × Value)) : Prop where
  filter : ∀ e ∈ entries, e.1 = "filter".toList → e.2.isTable = true
  output : ∀ e ∈ entries, e.1 = "output".toList → e.2.isTable = true
  writeMode : ∀ e ∈ entries, e.1 = "output".toList →
    ∀ x ∈ e.2.entries, x.1 = "write-mode".toList → x.2.isString = true

instance : Decidable (PlainParts entries) :=
  decidable_of_iff (_ ∧ _ ∧ _)
    ⟨fun ⟨hfilter, houtput, hmode⟩ => ⟨hfilter, houtput, hmode⟩,
      fun h => ⟨h.filter, h.output, h.writeMode⟩⟩

/-- There is nothing in a document but what may stand in the two sections. -/
structure Grammatical (entries : List (Text × Value)) : Prop where
  sections : ∀ e ∈ entries, e.1 = "filter".toList ∨ e.1 = "output".toList
  filter : ∀ {key v}, Given entries "filter".toList key v → FilterEntry key v
  output : ∀ {key v}, Given entries "output".toList key v → OutputEntry key v

/-- Each setting is the one that the document writes for it, or its default. -/
structure Reads (entries : List (Text × Value)) (c : Config) : Prop where
  tags : Settled (Given entries "filter".toList "tags".toList)
    (fun v ss => v = .array (ss.map .string)) [] c.filter.tags
  excludeTags : Settled (Given entries "filter".toList "exclude-tags".toList)
    (fun v ss => v = .array (ss.map .string)) [] c.filter.excludeTags
  excludeComments : Settled (Given entries "filter".toList "exclude-comments".toList)
    (fun v b => v = .boolean b) false c.filter.excludeComments
  maxCommentDepth : Settled (Given entries "filter".toList "max-comment-depth".toList)
    (fun v d => ∃ n : Nat, v = .integer n ∧ d = some n) none c.filter.maxCommentDepth
  fileMode : Settled (Given entries "output".toList "file-mode".toList)
    WritesMode .ownerOnly c.output.fileMode
  writeMode : Settled (Given entries "output".toList "write-mode".toList)
    (fun v p => v = .string p.name.toList) .append c.output.writeMode

theorem decode_ok_iff : (∃ c, decode (.table entries) = .ok c) ↔
    ∀ e ∈ entries, SectionEntry e.1 e.2 :=
  decodeRecord_ok_iff fun _ _ _ => setSection_ok_iff

theorem decodeFilter_ok_iff : (∃ x, decodeFilter (.table entries) = .ok x) ↔
    ∀ e ∈ entries, FilterEntry e.1 e.2 :=
  decodeRecord_ok_iff fun _ _ _ => setFilterField_ok_iff

theorem decodeOutput_ok_iff
    (hmode : ∀ e ∈ entries, e.1 = "write-mode".toList → e.2.isString = true) :
    (∃ x, decodeOutput (.table entries) = .ok x) ↔ ∀ e ∈ entries, OutputEntry e.1 e.2 :=
  decodeRecord_ok_iff fun e he _ => setOutputField_ok_iff (hmode e he)

theorem decode_ok_iff_grammatical (hplain : PlainParts entries) :
    (∃ c, decode (.table entries) = .ok c) ↔ Grammatical entries := by
  have hne : "filter".toList ≠ "output".toList := by decide
  rw [decode_ok_iff]
  constructor
  · intro h
    refine ⟨fun e he => (h e he).imp And.left And.left, ?_, ?_⟩
    · rintro key v ⟨⟨part, w⟩, he, rfl, hv⟩
      rcases h _ he with ⟨-, hx⟩ | ⟨hpart, -⟩
      · rw [Value.eq_table_of_isTable (hplain.filter _ he rfl), decodeFilter_ok_iff] at hx
        exact hx _ hv
      · exact absurd hpart hne
    · rintro key v ⟨⟨part, w⟩, he, rfl, hv⟩
      rcases h _ he with ⟨hpart, -⟩ | ⟨-, hx⟩
      · exact absurd hpart.symm hne
      · rw [Value.eq_table_of_isTable (hplain.output _ he rfl),
          decodeOutput_ok_iff (hplain.writeMode _ he rfl)] at hx
        exact hx _ hv
  · rintro h ⟨part, w⟩ he
    rcases h.sections _ he with rfl | rfl
    · refine .inl ⟨rfl, ?_⟩
      rw [Value.eq_table_of_isTable (hplain.filter _ he rfl), decodeFilter_ok_iff]
      exact fun e hv => h.filter ⟨_, he, rfl, hv⟩
    · refine .inr ⟨rfl, ?_⟩
      rw [Value.eq_table_of_isTable (hplain.output _ he rfl),
        decodeOutput_ok_iff (hplain.writeMode _ he rfl)]
      exact fun e hv => h.output ⟨_, he, rfl, hv⟩

theorem reads_of_decode (hproper : Value.Proper (.table entries))
    (hplain : PlainParts entries) (h : decode (.table entries) = .ok c) :
    Reads entries c := by
  have hfilter := settled_of_decodeRecord sets_filter hproper.nodup_keys h
  have houtput := settled_of_decodeRecord sets_output hproper.nodup_keys h
  have hmode := houtput.nested sets_writeMode hproper hplain.output
  exact {
    tags := hfilter.nested sets_tags hproper hplain.filter
    excludeTags := hfilter.nested sets_excludeTags hproper hplain.filter
    excludeComments := hfilter.nested sets_excludeComments hproper hplain.filter
    maxCommentDepth := hfilter.nested sets_maxCommentDepth hproper hplain.filter
    fileMode := houtput.nested sets_fileMode hproper hplain.output
    writeMode := hmode.imp fun hv hp => by
      obtain ⟨e, he, hpart, hv⟩ := hv
      exact (decodePolicy_eq_ok_iff (hplain.writeMode e he hpart _ hv rfl)).1 hp }

/-- What a document writes for each setting makes up the whole configuration. -/
theorem Reads.unique {c' : Config} (h : Reads entries c) (h' : Reads entries c') :
    c = c' := by
  obtain ⟨⟨tags, excludeTags, excludeComments, depth⟩, ⟨fileMode, writeMode⟩⟩ := c
  obtain ⟨⟨tags', excludeTags', excludeComments', depth'⟩, ⟨fileMode', writeMode'⟩⟩ := c'
  have htexts {v : Value} {ss ss' : List Text} (hv : v = .array (ss.map .string))
      (hv' : v = .array (ss'.map .string)) : ss = ss' :=
    ok_unique (decodeTexts_eq_ok_iff.2 hv) (decodeTexts_eq_ok_iff.2 hv')
  have htags := h.tags.unique h'.tags htexts
  have hexclude := h.excludeTags.unique h'.excludeTags htexts
  have hcomments := h.excludeComments.unique h'.excludeComments fun hv hv' =>
    ok_unique (decodeFlag_eq_ok_iff.2 hv) (decodeFlag_eq_ok_iff.2 hv')
  have hdepth := h.maxCommentDepth.unique h'.maxCommentDepth (by
    rintro v ⟨n, hv, rfl⟩ ⟨n', hv', rfl⟩
    rw [ok_unique (decodeDepth_eq_ok_iff.2 hv) (decodeDepth_eq_ok_iff.2 hv')])
  have hmode := h.fileMode.unique h'.fileMode fun hv hv' =>
    ok_unique (decodeFileMode_eq_ok_iff.2 hv) (decodeFileMode_eq_ok_iff.2 hv')
  have hpolicy := h.writeMode.unique h'.writeMode (by
    rintro v rfl hv
    exact ok_unique ((decodePolicy_eq_ok_iff rfl).2 rfl) ((decodePolicy_eq_ok_iff rfl).2 hv))
  simp only at htags hexclude hcomments hdepth hmode hpolicy
  rw [htags, hexclude, hcomments, hdepth, hmode, hpolicy]

end

/-- A document is accepted if and only if there is nothing in it but what may stand
there, and what it stands for is then the configuration with the settings that it
writes. -/
theorem parse_eq_ok_iff {document : Text} {entries : List (Text × Value)}
    (hdoc : Toml.parse? document = some entries) (hplain : PlainParts entries) :
    ((∃ c, parse document = .ok c) ↔ Grammatical entries) ∧
    ∀ c, parse document = .ok c ↔ Grammatical entries ∧ Reads entries c := by
  have hparse (c : Config) : parse document = .ok c ↔ decode (.table entries) = .ok c := by
    rw [parse, hdoc]
    exact mapError_eq_ok_iff
  have hproper := Toml.proper_of_parse? hdoc
  have haccept : (∃ c, parse document = .ok c) ↔ Grammatical entries := by
    simp only [hparse]
    exact decode_ok_iff_grammatical hplain
  have hreads {c : Config} (h : parse document = .ok c) : Reads entries c :=
    reads_of_decode hproper hplain ((hparse c).1 h)
  refine ⟨haccept, fun c => ⟨fun h => ⟨haccept.1 ⟨c, h⟩, hreads h⟩, ?_⟩⟩
  rintro ⟨hgrammatical, hc⟩
  obtain ⟨c', hc'⟩ := haccept.2 hgrammatical
  rwa [hc.unique (hreads hc')]

/-- The order of the sections and of their keys does not matter, nor how the mode is
spelled; a single key in the wrong section is not passed over. -/
theorem parse_eq_ok_iff_anyOrder :
    (∃ entries, Toml.parse? ("output.write-mode = 'create-new'\noutput.file-mode = 0o2640\n" ++
        "[filter]\nmax-comment-depth = 0\ntags = ['a', '']\n").toList = some entries ∧
      PlainParts entries ∧ Reads entries {
        filter := { tags := [['a'], []], maxCommentDepth := some 0 }
        output := { fileMode := ⟨0o2640, by decide⟩, writeMode := .createNew } }) ∧
    ∃ entries, Toml.parse? "[output]\nwrite-mode = 'append'\ntags = []\n".toList = some entries ∧
      PlainParts entries ∧ ¬ Grammatical entries := by
  constructor
  · obtain ⟨entries, hdoc, hplain⟩ : ∃ entries ∈ Toml.parse?
        ("output.write-mode = 'create-new'\noutput.file-mode = 0o2640\n" ++
          "[filter]\nmax-comment-depth = 0\ntags = ['a', '']\n").toList,
        PlainParts entries := by
      decide +kernel
    refine ⟨entries, hdoc, hplain, (((parse_eq_ok_iff hdoc hplain).2 _).1 ?_).2⟩
    decide +kernel
  · obtain ⟨entries, hdoc, hplain⟩ : ∃ entries ∈ Toml.parse?
        "[output]\nwrite-mode = 'append'\ntags = []\n".toList, PlainParts entries := by
      decide +kernel
    refine ⟨entries, hdoc, hplain, fun h => ?_⟩
    obtain ⟨c, hc⟩ := (parse_eq_ok_iff hdoc hplain).1.2 h
    have hrejected : (parse "[output]\nwrite-mode = 'append'\ntags = []\n".toList).isOk =
        false := by
      decide +kernel
    rw [hc] at hrejected
    cases hrejected

end Config

end Tangle
