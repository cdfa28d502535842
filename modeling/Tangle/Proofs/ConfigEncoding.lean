import Mathlib.Algebra.GroupWithZero.Nat
import Tangle.Proofs.ConfigGrammar
import Tangle.Proofs.OctalNumerals
import Tangle.Proofs.TomlWriting

/-!
# Writing a configuration and reading it again

What a configuration is encoded as is decoded to it again (`decode_encode`). Decoder
and encoder do not mirror each other: a mode may be given as an integer or as a numeral
in many spellings, and is always written as a numeral of four digits or more, and a
depth is only written if there is one.

Nothing in this depends on the size of the depth, but whether there is a document for
the encoded value does: integers in a document have 64 bits. For every depth that fits
there is one (`denotes_written`), and a depth that a document gave fits
(`writable_of_decode`). So what has been loaded can always be written and loaded again.
-/

namespace Tangle

/-- A document stands for a value. -/
def Toml.Denotes (document : Text) (v : Value) : Prop :=
  ∃ entries, Toml.parse? document = some entries ∧ v = .table entries

namespace Config

open Toml (Value)

theorem setAll_cons {α : Type} {set : α → Text → Value → Decoded α} {r middle : α}
    {key : Text} {v : Value} {entries : List (Text × Value)}
    (h : set r key v = .ok middle) :
    setAll set r ((key, v) :: entries) = setAll set middle entries := by
  rw [setAll, List.foldlM_cons, h]
  rfl

/-! ## Fields -/

section

variable (f : FilterConfig) (o : OutputConfig)

theorem set_tags (ss : List Text) :
    setFilterField f "tags".toList (encodeTexts ss) = .ok { f with tags := ss } := by
  rw [setFilterField_tags, encodeTexts, decodeTexts_eq_ok_iff.2 rfl]
  rfl

theorem set_excludeTags (ss : List Text) :
    setFilterField f "exclude-tags".toList (encodeTexts ss) =
      .ok { f with excludeTags := ss } := by
  rw [setFilterField_excludeTags, encodeTexts, decodeTexts_eq_ok_iff.2 rfl]
  rfl

theorem set_excludeComments (b : Bool) :
    setFilterField f "exclude-comments".toList (.boolean b) =
      .ok { f with excludeComments := b } := rfl

theorem set_maxCommentDepth (n : Nat) :
    setFilterField f "max-comment-depth".toList (.integer n) =
      .ok { f with maxCommentDepth := some n } := by
  rw [setFilterField_maxCommentDepth, decodeDepth_eq_ok_iff.2 rfl]
  rfl

theorem set_fileMode (mode : FileMode) :
    setOutputField o "file-mode".toList (.string mode.display) =
      .ok { o with fileMode := mode } := by
  rw [setOutputField_fileMode,
    decodeFileMode_eq_ok_iff.2 (.text (FileMode.parse_display mode))]
  rfl

theorem set_writeMode (p : WritePolicy) :
    setOutputField o "write-mode".toList (.string p.name.toList) =
      .ok { o with writeMode := p } := by
  rw [setOutputField_writeMode, (decodePolicy_eq_ok_iff rfl).2 rfl]
  rfl

end

/-! ## Records -/

-- The fields are decoded in the order of their keys, not in that of their writing.
theorem decodeFilter_encodeFilter (f : FilterConfig) :
    decodeFilter (encodeFilter f) = .ok f := by
  obtain ⟨tags, excludeTags, excludeComments, depth⟩ := f
  cases depth with
  | none =>
      calc decodeFilter (encodeFilter ⟨tags, excludeTags, excludeComments, none⟩)
        _ = setAll setFilterField {}
              [("exclude-comments".toList, .boolean excludeComments),
                ("exclude-tags".toList, encodeTexts excludeTags),
                ("tags".toList, encodeTexts tags)] := rfl
        _ = .ok ⟨tags, excludeTags, excludeComments, none⟩ := by
            rw [setAll_cons (set_excludeComments ..),
              setAll_cons (set_excludeTags ..),
              setAll_cons (set_tags ..)]
            rfl
  | some n =>
      calc decodeFilter (encodeFilter ⟨tags, excludeTags, excludeComments, some n⟩)
        _ = setAll setFilterField {}
              [("exclude-comments".toList, .boolean excludeComments),
                ("exclude-tags".toList, encodeTexts excludeTags),
                ("max-comment-depth".toList, .integer n),
                ("tags".toList, encodeTexts tags)] := rfl
        _ = .ok ⟨tags, excludeTags, excludeComments, some n⟩ := by
            rw [setAll_cons (set_excludeComments ..),
              setAll_cons (set_excludeTags ..),
              setAll_cons (set_maxCommentDepth ..),
              setAll_cons (set_tags ..)]
            rfl

theorem decodeOutput_encodeOutput (o : OutputConfig) :
    decodeOutput (encodeOutput o) = .ok o := by
  calc decodeOutput (encodeOutput o)
    _ = setAll setOutputField {}
          [("file-mode".toList, .string o.fileMode.display),
            ("write-mode".toList, .string o.writeMode.name.toList)] := rfl
    _ = .ok o := by
        rw [setAll_cons (set_fileMode ..), setAll_cons (set_writeMode ..)]
        rfl

/-- A configuration is decoded from what it is encoded as. -/
theorem decode_encode (c : Config) : decode (encode c) = .ok c := by
  calc decode (encode c)
    _ = setAll setSection {}
          [("filter".toList, encodeFilter c.filter),
            ("output".toList, encodeOutput c.output)] := rfl
    _ = .ok c := by
        rw [setAll_cons (setSection_filter.trans
            (map_eq_ok_iff.2 ⟨_, decodeFilter_encodeFilter _, rfl⟩)),
          setAll_cons (setSection_output.trans
            (map_eq_ok_iff.2 ⟨_, decodeOutput_encodeOutput _, rfl⟩))]
        rfl

/-! ## Depths -/

/-- A depth can be written as an integer. -/
def Writable (f : FilterConfig) : Prop := ∀ n ∈ f.maxCommentDepth, n < 2 ^ 64

theorem inRange_natCast_iff {n : Nat} : Toml.Scalar.inRange n = true ↔ n < 2 ^ 64 := by
  simp only [Toml.Scalar.inRange, Bool.and_eq_true, decide_eq_true_eq]
  omega

theorem writable_default : Writable {} := by
  rintro n ⟨⟩

theorem writable_of_proper {f : FilterConfig} (h : (encodeFilter f).Proper) :
    Writable f := by
  intro n hn
  rw [encodeFilter, Option.mem_def.1 hn] at h
  cases h.of_mem (List.mem_append_right _ (List.mem_singleton_self _)) with
  | integer hrange => exact inRange_natCast_iff.1 hrange

section

variable {α : Type} {set : α → Text → Value → Decoded α} {P : α → Prop}

/-- What setting a field keeps, setting all of them keeps. -/
theorem setAll_invariant {entries : List (Text × Value)}
    (hset : ∀ e ∈ entries, ∀ {r r'}, P r → set r e.1 e.2 = .ok r' → P r') {r r' : α}
    (hr : P r) (h : setAll set r entries = .ok r') : P r' := by
  induction entries generalizing r with
  | nil =>
      cases h
      exact hr
  | cons e rest ih =>
      rw [List.forall_mem_cons] at hset
      obtain ⟨middle, hfirst, hrest⟩ := setAll_cons_ok_iff.1 h
      exact ih hset.2 (hset.1 hr hfirst) hrest

theorem decodeRecord_invariant {name : String} {fields : List String} {dflt r : α}
    {v : Value} (hset : ∀ {r r' key w}, w.Proper → P r → set r key w = .ok r' → P r')
    (hdflt : P dflt) (hv : v.Proper) (h : decodeRecord name fields set dflt v = .ok r) :
    P r := by
  cases hv with
  | @table entries _ hvalues =>
      rw [decodeRecord_table] at h
      refine setAll_invariant (fun e he _ _ => ?_) hdflt h
      exact hset (hvalues e ((sortByKey_perm entries).mem_iff.1 he))
  | @array elements hvalues =>
      have hzip : decodeRecord name fields set dflt (.array elements) =
          setAll set dflt ((fields.zip elements).map fun e => (e.1.toList, e.2)) := by
        rw [setAll, List.foldlM_map]
        rfl
      rw [hzip] at h
      refine setAll_invariant (fun e he _ _ => ?_) hdflt h
      obtain ⟨pair, hpair, rfl⟩ := List.mem_map.1 he
      exact hset (hvalues _ (List.of_mem_zip hpair).2)
  | datetime s => exact hset (.string s) hdflt h
  | _ => cases h

end

theorem writable_of_decode {v : Value} {c : Config} (hv : v.Proper)
    (h : decode v = .ok c) : Writable c.filter := by
  refine decodeRecord_invariant (P := fun c : Config => Writable c.filter) ?_
    writable_default hv h
  intro c c' key w hw hc h
  rcases setSection_ok h with ⟨f, -, hf, rfl⟩ | ⟨o, -, -, rfl⟩
  · refine decodeRecord_invariant (P := Writable) ?_ writable_default hw hf
    intro f f' key w hw hf h
    rcases setFilterField_ok h with
      ⟨x, -, -, rfl⟩ | ⟨x, -, -, rfl⟩ | ⟨x, -, -, rfl⟩ | ⟨n, -, hn, rfl⟩
    · exact hf
    · exact hf
    · exact hf
    · rintro _ ⟨⟩
      rw [decodeDepth_eq_ok_iff.1 hn] at hw
      cases hw with
      | integer hrange => exact inRange_natCast_iff.1 hrange
  · exact hc

/-! ## The text of a configuration -/

open Toml Toml.Document

/-- The line for a depth; an unset one is left out. -/
def depthLine : Option Nat → Text
  | none => []
  | some n => pairLine "max-comment-depth".toList (Nat.toDigits 10 n)

/-- A configuration as a document. -/
def written (c : Config) : Text :=
  headerLine "filter".toList ++
  (pairLine "tags".toList (writeTexts c.filter.tags) ++
  (pairLine "exclude-tags".toList (writeTexts c.filter.excludeTags) ++
  (pairLine "exclude-comments".toList (writeBoolean c.filter.excludeComments) ++
  (depthLine c.filter.maxCommentDepth ++
  (headerLine "output".toList ++
  (pairLine "file-mode".toList (writeText c.output.fileMode.display) ++
  (pairLine "write-mode".toList (writeText c.output.writeMode.name.toList) ++ [])))))))

/-- The statement for a depth. -/
def depthStatements : Option Nat → List Statement
  | none => []
  | some n => [.pair ["max-comment-depth".toList] (.integer n)]

/-- What such a document states. -/
def writtenStatements (c : Config) : List Statement :=
  .header ["filter".toList] ::
  .pair ["tags".toList] (encodeTexts c.filter.tags) ::
  .pair ["exclude-tags".toList] (encodeTexts c.filter.excludeTags) ::
  .pair ["exclude-comments".toList] (.boolean c.filter.excludeComments) ::
  (depthStatements c.filter.maxCommentDepth ++
  [.header ["output".toList],
    .pair ["file-mode".toList] (.string c.output.fileMode.display),
    .pair ["write-mode".toList] (.string c.output.writeMode.name.toList)])

theorem statements?_depthLine {depth : Option Nat}
    (hdepth : ∀ n ∈ depth, n < 2 ^ 64) (rest : Text) :
    statements? (depthLine depth ++ rest) =
      (statements? rest).map fun statements => depthStatements depth ++ statements := by
  cases depth with
  | none => exact (Option.map_id' ..).symm
  | some n =>
      have hkey : BareKey "max-comment-depth".toList := by decide
      have hn : Scalar.inRange n = true := inRange_natCast_iff.2 (hdepth n rfl)
      exact hkey.statements?_pair (gives_toDigits maxDepth hn rest)

theorem statements?_written {c : Config} (hdepth : Writable c.filter) :
    statements? (written c) = some (writtenStatements c) := by
  have hend : statements? [] = some [] := by rw [statements?.eq_def]; rfl
  have hnewline (rest t : Text) : '\n' :: rest ≠ '"' :: t := nofun
  have hpositive : 0 < maxDepth := by decide
  have hfilter : BareKey "filter".toList := by decide
  have htags : BareKey "tags".toList := by decide
  have hexclude : BareKey "exclude-tags".toList := by decide
  have hcomments : BareKey "exclude-comments".toList := by decide
  have houtput : BareKey "output".toList := by decide
  have hmode : BareKey "file-mode".toList := by decide
  have hpolicy : BareKey "write-mode".toList := by decide
  rw [written, hfilter.statements?_header,
    htags.statements?_pair (gives_writeTexts hpositive _ _),
    hexclude.statements?_pair (gives_writeTexts hpositive _ _),
    hcomments.statements?_pair (gives_writeBoolean _ _ _),
    statements?_depthLine hdepth,
    houtput.statements?_header,
    hmode.statements?_pair (gives_writeText _ _ (hnewline _)),
    hpolicy.statements?_pair (gives_writeText _ _ (hnewline _)), hend]
  rfl

theorem build_writtenStatements (c : Config) :
    (build [] [] (writtenStatements c)).map
      (fun entries => Value.table (Node.finishEntries entries)) = some (encode c) := by
  obtain ⟨⟨tags, excludeTags, excludeComments, depth⟩, o⟩ := c
  cases depth <;> rfl

theorem denotes_written {c : Config} (hdepth : Writable c.filter) :
    Denotes (written c) (encode c) := by
  obtain ⟨entries, hentries, hfinish⟩ :=
    Option.map_eq_some_iff.1 (build_writtenStatements c)
  refine ⟨Node.finishEntries entries, ?_, hfinish.symm⟩
  have hmark (s : Text) : written c ≠ '\ufeff' :: s := by
    obtain ⟨t, ht⟩ : ∃ t, written c = '[' :: t := ⟨_, rfl⟩
    rw [ht]
    exact nofun
  rw [parse?_of_statements? hmark (statements?_written hdepth)]
  exact Option.map_eq_some_iff.2 ⟨entries, hentries, rfl⟩

theorem writable_of_denotes {c : Config} {document : Text}
    (h : Denotes document (encode c)) : Writable c.filter := by
  obtain ⟨entries, hdoc, hencode⟩ := h
  have hproper := Toml.proper_of_parse? hdoc
  rw [← hencode] at hproper
  exact writable_of_proper (hproper.of_mem (List.mem_cons_self ..))

theorem parse_of_denotes {c : Config} {document : Text} (h : Denotes document (encode c)) :
    parse document = .ok c := by
  obtain ⟨entries, hdoc, hencode⟩ := h
  rw [parse, hdoc]
  dsimp only
  rw [← hencode, decode_encode]
  rfl

theorem writable_of_parse {c : Config} {document : Text} (h : parse document = .ok c) :
    Writable c.filter := by
  unfold parse at h
  split at h
  · cases h
  · next hdoc =>
      exact writable_of_decode (Toml.proper_of_parse? hdoc) (mapError_eq_ok_iff.1 h)

/-- A configuration is decoded from what it is encoded as. There is a document for that
if the depth fits in an integer, as that of a configuration that was loaded does; and
whatever document there is, loading it gives the same configuration. -/
theorem encode_roundTrip (c : Config) :
    decode (encode c) = .ok c ∧
    ((∃ text, Denotes text (encode c)) ↔ ∀ n ∈ c.filter.maxCommentDepth, n < 2 ^ 64) ∧
    ∀ document, parse document = .ok c →
      (∃ again, Denotes again (encode c)) ∧
      ∀ again, Denotes again (encode c) →
        parse again = .ok c ∧
        (parse again).map extractOptions = (parse document).map extractOptions := by
  refine ⟨decode_encode c, ⟨?_, ?_⟩, fun document hload => ⟨?_, fun again h => ?_⟩⟩
  · rintro ⟨text, h⟩
    exact writable_of_denotes h
  · intro hdepth
    exact ⟨written c, denotes_written hdepth⟩
  · exact ⟨written c, denotes_written (writable_of_parse hload)⟩
  · rw [parse_of_denotes h, hload]
    exact ⟨rfl, rfl⟩

/-- A mode given as an integer comes back as a numeral, and all else as it was. -/
theorem encode_roundTrip_integerMode :
    let c : Config := {
      filter := { excludeTags := [['"', 'a', '\\']], maxCommentDepth := some 3 }
      output := { fileMode := ⟨0o17, by decide⟩ } }
    parse ("output.file-mode = 0o17\n[filter]\nmax-comment-depth = 3\n" ++
        "exclude-tags = ['\"a\\']\n").toList = .ok c ∧
      decode (encode c) = .ok c ∧ ∃ again, Denotes again (encode c) ∧ parse again = .ok c := by
  intro c
  have hload : parse ("output.file-mode = 0o17\n[filter]\nmax-comment-depth = 3\n" ++
      "exclude-tags = ['\"a\\']\n").toList = .ok c := by
    decide +kernel
  obtain ⟨hdecode, -, hreload⟩ := encode_roundTrip c
  obtain ⟨⟨again, hagain⟩, hsame⟩ := hreload _ hload
  exact ⟨hload, hdecode, again, hagain, (hsame again hagain).1⟩

end Config

end Tangle
