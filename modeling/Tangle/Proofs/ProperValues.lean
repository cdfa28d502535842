import Tangle.Toml.Document

/-!
# What a TOML document can write

Two things hold of whatever a document writes and are not visible in the type of
values: no table has a key twice, and integers have 64 bits (`Value.Proper`). The
first holds because a key is only ever put where there is none, or in the place of
the same key (`Node.ProperEntries.put`); every other step of building a document
comes down to that one. The second is checked where a number is read.
-/

namespace Tangle.Toml

/-- A value that a document can write. -/
inductive Value.Proper : Value → Prop
  | string (s : Text) : Proper (.string s)
  | integer {n : Int} (h : Scalar.inRange n = true) : Proper (.integer n)
  | real (x : Real) : Proper (.real x)
  | boolean (b : Bool) : Proper (.boolean b)
  | datetime (s : Text) : Proper (.datetime s)
  | array {elements : List Value} (h : ∀ v ∈ elements, Proper v) :
      Proper (.array elements)
  | table {entries : List (Text × Value)} (hkeys : (entries.map Prod.fst).Nodup)
      (h : ∀ e ∈ entries, Proper e.2) : Proper (.table entries)

theorem Value.Proper.nodup_keys {entries : List (Text × Value)}
    (h : Proper (.table entries)) : (entries.map Prod.fst).Nodup := by
  cases h
  assumption

theorem Value.Proper.of_mem {entries : List (Text × Value)} {e : Text × Value}
    (h : Proper (.table entries)) (he : e ∈ entries) : e.2.Proper := by
  cases h with
  | table _ hvalues => exact hvalues e he

/-- A part of a document that can be finished to such a value. -/
inductive Node.Proper : Node → Prop
  | value {v : Value} (h : v.Proper) : Proper (.value v)
  | table {origin : Origin} {entries : List (Text × Node)}
      (hkeys : (entries.map Prod.fst).Nodup) (h : ∀ e ∈ entries, Proper e.2) :
      Proper (.table origin entries)
  | tables {before : List (List (Text × Node))} {last : List (Text × Node)}
      (hkeys : ∀ entries ∈ before ++ [last], (entries.map Prod.fst).Nodup)
      (h : ∀ entries ∈ before ++ [last], ∀ e ∈ entries, Proper e.2) :
      Proper (.tables before last)

namespace Node

/-- Entries with distinct keys of parts that can be finished. -/
structure ProperEntries (entries : Entries) : Prop where
  keys : (entries.map Prod.fst).Nodup
  nodes : ∀ e ∈ entries, e.2.Proper

namespace ProperEntries

variable {entries entries' : Entries} {key : Text} {path : List Text}

theorem nil : ProperEntries [] := ⟨List.nodup_nil, nofun⟩

/-! ## Building -/

theorem mem_put {node : Node} {e : Text × Node} (h : e ∈ Node.put key node entries) :
    e = (key, node) ∨ e ∈ entries := by
  fun_induction Node.put key node entries with
  | case1 => exact .inl (List.mem_singleton.1 h)
  | case2 n rest =>
      rcases List.mem_cons.1 h with rfl | h
      · exact .inl rfl
      · exact .inr (List.mem_cons_of_mem _ h)
  | case3 k n rest _ ih =>
      rcases List.mem_cons.1 h with rfl | h
      · exact .inr (List.mem_cons_self ..)
      · exact (ih h).imp_right (List.mem_cons_of_mem _)

theorem put {node : Node} (h : ProperEntries entries) (hnode : node.Proper) :
    ProperEntries (Node.put key node entries) := by
  refine ⟨?_, fun e he => ?_⟩
  · have hkeys := h.keys
    clear h
    fun_induction Node.put key node entries with
    | case1 => exact List.pairwise_singleton ..
    | case2 n rest => exact hkeys
    | case3 k n rest hk ih =>
        rw [List.map_cons, List.nodup_cons] at hkeys ⊢
        refine ⟨fun hmem => ?_, ih hkeys.2⟩
        obtain ⟨e, he, heq⟩ := List.mem_map.1 hmem
        rcases mem_put he with rfl | he
        · exact hk heq.symm
        · exact hkeys.1 (List.mem_map.2 ⟨e, he, heq⟩)
  · rcases mem_put he with rfl | he
    · exact hnode
    · exact h.nodes e he

theorem find? {node : Node} (h : ProperEntries entries)
    (hfind : Node.find? key entries = some node) : node.Proper := by
  obtain ⟨e, he, rfl⟩ := Option.map_eq_some_iff.1 hfind
  exact h.nodes e (List.mem_of_find?_eq_some he)

theorem proper_table {origin : Origin} (h : ProperEntries entries) :
    Node.Proper (.table origin entries) := .table h.keys h.nodes

theorem of_table {origin : Origin} (h : Node.Proper (.table origin entries)) :
    ProperEntries entries := by
  cases h with
  | table hkeys hnodes => exact ⟨hkeys, hnodes⟩

theorem proper_tables_iff {before : List Entries} {last : Entries} :
    Node.Proper (.tables before last) ↔ ∀ es ∈ before ++ [last], ProperEntries es := by
  constructor
  · rintro (_ | _ | ⟨hkeys, hnodes⟩) es hes
    exact ⟨hkeys es hes, hnodes es hes⟩
  · exact fun h => .tables (fun es hes => (h es hes).keys) fun es hes => (h es hes).nodes

theorem last_of_tables {before : List Entries} {last : Entries}
    (h : Node.Proper (.tables before last)) : ProperEntries last :=
  proper_tables_iff.1 h last (by simp)

/-- The last table of an array grows, and another one may follow it. -/
theorem proper_tables_last {before : List Entries} {last : Entries}
    (h : Node.Proper (.tables before last)) (h' : ProperEntries entries) :
    Node.Proper (.tables before entries) := by
  refine proper_tables_iff.2 fun es hes => ?_
  rcases List.mem_append.1 hes with hes | hes
  · exact proper_tables_iff.1 h es (List.mem_append_left _ hes)
  · exact List.mem_singleton.1 hes ▸ h'

theorem proper_tables_next {before : List Entries} {last : Entries}
    (h : Node.Proper (.tables before last)) :
    Node.Proper (.tables (before ++ [last]) []) := by
  refine proper_tables_iff.2 fun es hes => ?_
  rcases List.mem_append.1 hes with hes | hes
  · exact proper_tables_iff.1 h es hes
  · exact List.mem_singleton.1 hes ▸ nil

theorem defineAt {v : Value} {dotted : Bool} (hv : v.Proper) (h : ProperEntries entries)
    (hdefine : Node.defineAt path key v dotted entries = some entries') :
    ProperEntries entries' := by
  induction path generalizing entries entries' dotted with
  | nil =>
      rw [Node.defineAt] at hdefine
      split at hdefine <;> cases hdefine
      exact h.put (.value hv)
  | cons k path ih =>
      rw [Node.defineAt] at hdefine
      split at hdefine
      · obtain ⟨es, hes, rfl⟩ := Option.map_eq_some_iff.1 hdefine
        exact h.put (ih nil hes).proper_table
      · cases hdefine
      · next hfind =>
          obtain ⟨es, hes, rfl⟩ := Option.map_eq_some_iff.1 hdefine
          exact h.put (ih (of_table (h.find? hfind)) hes).proper_table
      · next hfind =>
          obtain ⟨es, hes, rfl⟩ := Option.map_eq_some_iff.1 hdefine
          have hnode := h.find? hfind
          exact h.put (proper_tables_last hnode (ih (last_of_tables hnode) hes))
      · cases hdefine

theorem define {v : Value} (hv : v.Proper) (h : ProperEntries entries)
    (hdefine : Node.define path key v entries = some entries') :
    ProperEntries entries' := by
  unfold Node.define at hdefine
  split at hdefine
  · split at hdefine <;> cases hdefine
    exact h.put (.value hv)
  · exact h.defineAt hv hdefine

theorem within {change : Entries → Option Entries}
    (hchange : ∀ {es es'}, ProperEntries es → change es = some es' → ProperEntries es')
    (h : ProperEntries entries) (hwithin : Node.within path change entries = some entries') :
    ProperEntries entries' := by
  induction path generalizing entries entries' with
  | nil => exact hchange h hwithin
  | cons k path ih =>
      rw [Node.within] at hwithin
      split at hwithin
      · obtain ⟨es, hes, rfl⟩ := Option.map_eq_some_iff.1 hwithin
        exact h.put (ih nil hes).proper_table
      · next hfind =>
          obtain ⟨es, hes, rfl⟩ := Option.map_eq_some_iff.1 hwithin
          exact h.put (ih (of_table (h.find? hfind)) hes).proper_table
      · next hfind =>
          obtain ⟨es, hes, rfl⟩ := Option.map_eq_some_iff.1 hwithin
          have hnode := h.find? hfind
          exact h.put (proper_tables_last hnode (ih (last_of_tables hnode) hes))
      · cases hwithin

theorem enter (h : ProperEntries entries)
    (henter : Node.enter path key entries = some entries') : ProperEntries entries' := by
  refine h.within (fun {es es'} hes hchange => ?_) henter
  split at hchange
  · cases hchange
    exact hes.put nil.proper_table
  · next hfind =>
      cases hchange
      exact hes.put (of_table (hes.find? hfind)).proper_table
  · cases hchange

theorem enterElement (h : ProperEntries entries)
    (henter : Node.enterElement path key entries = some entries') :
    ProperEntries entries' := by
  refine h.within (fun {es es'} hes hchange => ?_) henter
  split at hchange
  · cases hchange
    exact hes.put (proper_tables_iff.2 fun es hes => List.mem_singleton.1 hes ▸ nil)
  · next hfind =>
      cases hchange
      exact hes.put (proper_tables_next (hes.find? hfind))
  · cases hchange

end ProperEntries

/-! ## Finishing -/

theorem finishEntries_eq_map (entries : Entries) :
    finishEntries entries = entries.map fun e => (e.1, finish e.2) := by
  induction entries with
  | nil => rfl
  | cons e rest ih => rw [finishEntries, ih, List.map_cons]

theorem finishAll_eq_map (before : List Entries) :
    finishAll before = before.map fun entries => .table (finishEntries entries) := by
  induction before with
  | nil => rfl
  | cons entries rest ih => rw [finishAll, ih, List.map_cons]

theorem proper_table_finishEntries {entries : Entries}
    (hkeys : (entries.map Prod.fst).Nodup) (h : ∀ e ∈ entries, (finish e.2).Proper) :
    Value.Proper (.table (finishEntries entries)) := by
  rw [finishEntries_eq_map]
  refine .table ?_ fun e he => ?_
  · rwa [List.map_map]
  · obtain ⟨e', he', rfl⟩ := List.mem_map.1 he
    exact h e' he'

theorem Proper.finish {n : Node} (h : n.Proper) : (Node.finish n).Proper := by
  induction h with
  | value h => exact h
  | table hkeys _ ih => exact proper_table_finishEntries hkeys ih
  | @tables before last hkeys _ ih =>
      have hall : ∀ entries ∈ before ++ [last],
          Value.Proper (.table (finishEntries entries)) := fun entries hes =>
        proper_table_finishEntries (hkeys entries hes) (ih entries hes)
      refine .array fun v hv => ?_
      rw [finishAll_eq_map] at hv
      rcases List.mem_append.1 hv with hv | hv
      · obtain ⟨entries, hes, rfl⟩ := List.mem_map.1 hv
        exact hall entries (List.mem_append_left _ hes)
      · rw [List.mem_singleton.1 hv]
        exact hall last (by simp)

theorem ProperEntries.finish {entries : Entries} (h : ProperEntries entries) :
    Value.Proper (.table (finishEntries entries)) :=
  proper_table_finishEntries h.keys fun e he => (h.nodes e he).finish

end Node

/-! ## Reading -/

theorem Scalar.proper_of_ofWord? {word : Text} {v : Value} (h : ofWord? word = some v) :
    v.Proper := by
  unfold ofWord? at h
  split at h
  · cases h
    exact .boolean true
  · split at h
    · cases h
      exact .boolean false
    · split at h
      · next hn =>
          cases h
          exact .integer (Option.filter_eq_some_iff.1 hn).2
      · split at h
        · cases h
          exact .real _
        · split at h <;> cases h
          exact .datetime word

namespace Document

/-- Gives values that a document can write. -/
def ReadsProper (value? : ValueReader) : Prop :=
  ∀ {s v rest}, value? s = some (v, rest) → v.Proper

theorem proper_of_elements? {value? : ValueReader} (hvalue : ReadsProper value?)
    {s : Text} {vs : List Value} {rest : Rest s}
    (h : elements? value? s = some (vs, rest)) : ∀ v ∈ vs, v.Proper := by
  fun_induction elements? value? s generalizing vs with
  | case1 => cases h
  | case2 =>
      cases h
      exact nofun
  | case3 => cases h
  | case4 _ _ _ _ v _ _ hv =>
      cases h
      exact List.forall_mem_singleton.2 (hvalue hv)
  | case5 => cases h
  | case6 _ _ _ _ v _ _ hv _ _ _ _ vs _ _ hvs ih =>
      cases h
      exact List.forall_mem_cons.2 ⟨hvalue hv, ih hvs⟩
  | case7 => cases h

theorem proper_of_pairs? {value? : ValueReader} (hvalue : ReadsProper value?)
    {s : Text} {entries entries' : Node.Entries} {rest : Rest s}
    (hentries : Node.ProperEntries entries)
    (h : pairs? value? entries s = some (entries', rest)) :
    Node.ProperEntries entries' := by
  fun_induction pairs? value? entries s generalizing entries' with
  | case1 => cases h
  | case2 =>
      cases h
      exact hentries
  | case3 => cases h
  | case4 => cases h
  | case5 _ _ _ _ _ _ _ _ _ _ _ _ hv _ _ hdefine =>
      cases h
      exact hentries.define (hvalue hv) hdefine
  | case6 => cases h
  | case7 _ _ _ _ _ _ _ _ _ _ _ _ hv _ _ hdefine _ _ _ _ _ _ hrest ih =>
      cases h
      exact ih (hentries.define (hvalue hv) hdefine) hrest
  | case8 => cases h
  | case9 => cases h

theorem proper_of_stringValue? {s : Text} {v : Value} {rest : Rest s}
    (h : stringValue? s = some (v, rest)) : v.Proper := by
  unfold stringValue? at h
  split at h <;> cases h
  exact .string _

theorem readsProper_value? (depth : Nat) : ReadsProper (value? depth) := by
  induction depth using Nat.strongRecOn with
  | ind depth ih =>
      intro s v rest h
      unfold value? at h
      split at h
      · exact proper_of_stringValue? h
      · exact proper_of_stringValue? h
      · cases depth with
        | zero => cases h
        | succ d =>
            obtain ⟨⟨vs, _⟩, hvs, heq⟩ := Option.map_eq_some_iff.1 h
            cases heq
            exact .array (proper_of_elements? (ih d (Nat.lt_succ_self d)) hvs)
      · cases depth with
        | zero => cases h
        | succ d =>
            obtain ⟨⟨entries, _⟩, hentries, heq⟩ := Option.map_eq_some_iff.1 h
            cases heq
            exact (proper_of_pairs? (ih d (Nat.lt_succ_self d)) .nil hentries).finish
      · obtain ⟨v', hv, heq⟩ := Option.map_eq_some_iff.1 h
        cases heq
        exact Scalar.proper_of_ofWord? hv

/-- What a statement writes can be written. -/
def Statement.Proper : Statement → Prop
  | .pair _ v => v.Proper
  | _ => True

theorem proper_of_statement? {s rest : Text} {statement : Statement}
    (h : statement? s = some (statement, rest)) : statement.Proper := by
  unfold statement? at h
  split at h
  · split at h <;> cases h
    trivial
  · split at h <;> cases h
    trivial
  · split at h
    · obtain ⟨⟨v, _⟩, hv, heq⟩ := Option.map_eq_some_iff.1 h
      cases heq
      exact readsProper_value? maxDepth hv
    · cases h

theorem proper_of_statements? {s : Text} {statements : List Statement}
    (h : statements? s = some statements) : ∀ st ∈ statements, st.Proper := by
  fun_induction statements? s generalizing statements with
  | case1 => cases h
  | case2 =>
      cases h
      exact nofun
  | case3 => cases h
  | case4 => cases h
  | case5 s c t hs st rest hst rest' hrest ih =>
      obtain ⟨sts, hsts, rfl⟩ := Option.map_eq_some_iff.1 h
      exact List.forall_mem_cons.2 ⟨proper_of_statement? hst, ih hsts⟩

theorem properEntries_of_build {path : List Text} {entries entries' : Node.Entries}
    {statements : List Statement} (hentries : Node.ProperEntries entries)
    (hstatements : ∀ st ∈ statements, st.Proper)
    (h : build path entries statements = some entries') :
    Node.ProperEntries entries' := by
  induction statements generalizing path entries with
  | nil =>
      cases h
      exact hentries
  | cons st rest ih =>
      obtain ⟨hst, hrest⟩ := List.forall_mem_cons.1 hstatements
      cases st with
      | pair keys v =>
          rw [build] at h
          split at h
          · next hwithin =>
              exact ih (hentries.within (fun hes => hes.define hst) hwithin) hrest h
          · cases h
      | header keys =>
          rw [build] at h
          split at h
          · next henter => exact ih (hentries.enter henter) hrest h
          · cases h
      | elementHeader keys =>
          rw [build] at h
          split at h
          · next henter => exact ih (hentries.enterElement henter) hrest h
          · cases h

end Document

theorem proper_of_parse? {document : Text} {entries : List (Text × Value)}
    (h : parse? document = some entries) : Value.Proper (.table entries) := by
  unfold parse? at h
  dsimp only at h
  split at h
  · cases h
  · next hstatements =>
      obtain ⟨es, hbuild, rfl⟩ := Option.map_eq_some_iff.1 h
      exact (Document.properEntries_of_build .nil
        (Document.proper_of_statements? hstatements) hbuild).finish

end Tangle.Toml
