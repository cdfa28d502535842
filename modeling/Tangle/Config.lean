import Tangle.Extract
import Tangle.FileMode
import Tangle.Text.Quoted
import Tangle.Toml.Document
import Tangle.WritePolicy

/-!
# Configuration

A configuration has a section on which blocks are extracted and one on how results are written. Each
key is optional, and a key that is not known is an error, so that a misspelt one is never ignored.

`decode` reads a configuration from a TOML value and `encode` writes one. A section may also be
written as an array of its values in the order of its keys. The keys of a table are looked at in the
order of their code points, and the first error found is the one reported.
-/

namespace Tangle

structure FilterConfig where
  /-- Tags a block must carry, all of them. -/
  tags : List Text := []
  /-- Tags that reject a block, any of them. -/
  excludeTags : List Text := []
  excludeComments : Bool := false
  /-- How many comments may enclose a block; any number if unset. -/
  maxCommentDepth : Option Nat := none
  deriving DecidableEq, Repr

structure OutputConfig where
  fileMode : FileMode := .ownerOnly
  writeMode : WritePolicy := .append
  deriving DecidableEq, Repr

structure Config where
  filter : FilterConfig := {}
  output : OutputConfig := {}
  deriving DecidableEq, Repr

namespace Config

/-- Why a value is not a configuration. -/
inductive DecodeError where
  | unknownField (name : Text) (known : List String)
  | unknownVariant (name : Text)
  /-- A value of another type than the one expected. -/
  | wrongType (found : Text) (expected : String)
  /-- An integer that does not fit. -/
  | wrongInteger (n : Int) (expected : String)
  | notFileMode
  | badFileMode (e : FileModeError)
  /-- Neither a string nor a table where a policy is expected. -/
  | notPolicy
  /-- A table where a policy is expected that has no key, or more than one. -/
  | noVariant
  | manyVariants
  /-- A policy written as a key with something behind it. -/
  | variantWithElements
  | variantWithEntries
  | variantWithValue (kind : String)
  deriving DecidableEq, Repr

/-- Names in backquotes, joined for a message. -/
def oneOf (names : List String) : String :=
  match names.map fun n => s!"`{n}`" with
  | [a] => a
  | [a, b] => s!"{a} or {b}"
  | all => "one of " ++ ", ".intercalate all

def DecodeError.message : DecodeError → String
  | .unknownField name known =>
    s!"unknown field `{String.ofList name}`, expected {oneOf known}"
  | .unknownVariant name =>
    s!"unknown variant `{String.ofList name}`, expected " ++
      oneOf (WritePolicy.all.map WritePolicy.name)
  | .wrongType found expected => s!"invalid type: {String.ofList found}, expected {expected}"
  | .wrongInteger n expected => s!"invalid value: integer `{n}`, expected {expected}"
  | .notFileMode => "data did not match any variant of untagged enum Raw"
  | .badFileMode e => e.message
  | .notPolicy => "wanted string or table"
  | .noVariant => "wanted exactly 1 element, found 0 elements"
  | .manyVariants => "wanted exactly 1 element, more than 1 element"
  | .variantWithElements => "expected empty array"
  | .variantWithEntries => "expected empty table"
  | .variantWithValue kind => s!"expected table, found {kind}"

open Toml (Value)

/-! ## Decoding -/

/-- What a value is called in a message about its type. -/
def describe : Value → Text
  | .string s => "string ".toList ++ s.quote
  | .integer n => s!"integer `{n}`".toList
  | .real x => "floating point `".toList ++ x.display ++ ['`']
  | .boolean b => s!"boolean `{b}`".toList
  | .datetime _ => "map".toList
  | .array _ => "sequence".toList
  | .table _ => "map".toList

/-- What a type of value is called. -/
def kind : Value → String
  | .string _ => "string"
  | .integer _ => "integer"
  | .real _ => "float"
  | .boolean _ => "boolean"
  | .datetime _ => "datetime"
  | .array _ => "array"
  | .table _ => "table"

abbrev Decoded := Except DecodeError

def decodeText : Value → Decoded Text
  | .string s => .ok s
  | v => .error (.wrongType (describe v) "a string")

def decodeTexts : Value → Decoded (List Text)
  | .array vs => vs.mapM decodeText
  | v => .error (.wrongType (describe v) "a sequence")

def decodeFlag : Value → Decoded Bool
  | .boolean b => .ok b
  | v => .error (.wrongType (describe v) "a boolean")

def decodeDepth : Value → Decoded Nat
  | .integer n => if 0 ≤ n then .ok n.toNat else .error (.wrongInteger n "usize")
  | v => .error (.wrongType (describe v) "usize")

def decodeFileMode : Value → Decoded FileMode
  | .integer n =>
    if 0 ≤ n ∧ n < UInt32.size then (FileMode.ofBits n.toNat).mapError .badFileMode
    else .error .notFileMode
  | .string s => (FileMode.parse s).mapError .badFileMode
  | _ => .error .notFileMode

def decodePolicyName (name : Text) : Decoded WritePolicy :=
  match WritePolicy.ofName? name with
  | some p => .ok p
  | none => .error (.unknownVariant name)

def decodePolicy : Value → Decoded WritePolicy
  | .string s => decodePolicyName s
  | .table [] => .error .noVariant
  | .table [(name, v)] => do
    let p ← decodePolicyName name
    match v with
    | .array [] => .ok p
    | .array _ => .error .variantWithElements
    | .table [] => .ok p
    | .table _ => .error .variantWithEntries
    | v => .error (.variantWithValue (kind v))
  | .table _ => .error .manyVariants
  | _ => .error .notPolicy

/-- Whether a key comes before another one in the order of code points, or is the same. -/
def keyLE : Text → Text → Bool
  | [], _ => true
  | _ :: _, [] => false
  | a :: s, b :: t => if a = b then keyLE s t else a < b

/-- Puts an entry in front of the first one whose key comes after its own. -/
def insertByKey (entry : Text × Value) : List (Text × Value) → List (Text × Value)
  | [] => [entry]
  | next :: rest =>
    if keyLE entry.1 next.1 then entry :: next :: rest else next :: insertByKey entry rest

/-- The entries of a table in the order of their keys. -/
def sortByKey (entries : List (Text × Value)) : List (Text × Value) := entries.foldr insertByKey []

theorem insertByKey_perm (entry : Text × Value) (entries : List (Text × Value)) :
    (insertByKey entry entries).Perm (entry :: entries) := by
  induction entries with
  | nil => exact .refl _
  | cons next rest ih =>
    rw [insertByKey]
    split
    · exact .refl _
    · exact (ih.cons next).trans (.swap entry next rest)

theorem sortByKey_perm (entries : List (Text × Value)) : (sortByKey entries).Perm entries := by
  induction entries with
  | nil => exact .refl _
  | cons entry rest ih => exact (insertByKey_perm entry (sortByKey rest)).trans (ih.cons entry)

/-- The name of the only key that a date has when it is looked at as a table. -/
def datetimeKey : Text := "$__toml_private_datetime".toList

/-- Decodes a record from a table of its fields, or from an array of their values. -/
def decodeRecord {α : Type} (name : String) (fields : List String)
    (set : α → Text → Value → Decoded α) (dflt : α) : Value → Decoded α
  | .table entries =>
    (sortByKey entries).foldlM (fun r (k, v) => set r k v) dflt
  | .array vs => (fields.zip vs).foldlM (fun r (k, v) => set r k.toList v) dflt
  | .datetime s => set dflt datetimeKey (.string s)
  | v => .error (.wrongType (describe v) s!"struct {name}")

def filterFields : List String := ["tags", "exclude-tags", "exclude-comments", "max-comment-depth"]

def setFilterField (c : FilterConfig) (key : Text) (v : Value) : Decoded FilterConfig :=
  if key = "tags".toList then (decodeTexts v).map fun x => { c with tags := x }
  else if key = "exclude-tags".toList then (decodeTexts v).map fun x => { c with excludeTags := x }
  else if key = "exclude-comments".toList then
    (decodeFlag v).map fun x => { c with excludeComments := x }
  else if key = "max-comment-depth".toList then
    (decodeDepth v).map fun x => { c with maxCommentDepth := some x }
  else .error (.unknownField key filterFields)

def outputFields : List String := ["file-mode", "write-mode"]

def setOutputField (c : OutputConfig) (key : Text) (v : Value) : Decoded OutputConfig :=
  if key = "file-mode".toList then (decodeFileMode v).map fun x => { c with fileMode := x }
  else if key = "write-mode".toList then (decodePolicy v).map fun x => { c with writeMode := x }
  else .error (.unknownField key outputFields)

def sections : List String := ["filter", "output"]

def setSection (c : Config) (key : Text) (v : Value) : Decoded Config :=
  if key = "filter".toList then
    (decodeRecord "FilterConfig" filterFields setFilterField {} v).map fun x =>
      { c with filter := x }
  else if key = "output".toList then
    (decodeRecord "OutputConfig" outputFields setOutputField {} v).map fun x =>
      { c with output := x }
  else .error (.unknownField key sections)

/-- The configuration that a TOML value stands for. -/
def decode (v : Value) : Decoded Config := decodeRecord "Config" sections setSection {} v

/-- Why a text is not a configuration. -/
inductive ParseError where
  | malformed
  | wrong (e : DecodeError)
  deriving DecidableEq, Repr

/-- The configuration that a TOML document writes. -/
def parse (document : Text) : Except ParseError Config :=
  match Toml.parse? document with
  | none => .error .malformed
  | some entries => (decode (.table entries)).mapError .wrong

/-! ## Encoding -/

def encodeTexts (ss : List Text) : Value := .array (ss.map .string)

def encodeFilter (c : FilterConfig) : Value :=
  .table ([("tags".toList, encodeTexts c.tags), ("exclude-tags".toList, encodeTexts c.excludeTags),
    ("exclude-comments".toList, .boolean c.excludeComments)] ++
    match c.maxCommentDepth with
    | none => []
    | some n => [("max-comment-depth".toList, .integer n)])

def encodeOutput (c : OutputConfig) : Value :=
  .table [("file-mode".toList, .string c.fileMode.display),
    ("write-mode".toList, .string c.writeMode.name.toList)]

/-- The TOML value that stands for a configuration. A depth that is unset is left out. -/
def encode (c : Config) : Value :=
  .table [("filter".toList, encodeFilter c.filter), ("output".toList, encodeOutput c.output)]

/-! ## Use -/

/-- The tags that a list names; empty entries name none. -/
def namedTags (tags : List Text) : List Text := tags.filter fun tag => !tag.isEmpty

/-- What the configuration says about extraction. -/
def extractOptions (c : Config) : ExtractOptions where
  filter := { required := namedTags c.filter.tags, excluded := namedTags c.filter.excludeTags }
  walker := { includeComments := !c.filter.excludeComments, maxDepth := c.filter.maxCommentDepth }

end Config

end Tangle
