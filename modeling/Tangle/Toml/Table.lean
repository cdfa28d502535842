import Tangle.Toml.Value

/-!
# Building TOML tables

A document defines its tables piece by piece, and TOML has rules about who may add to which table. A
table under construction remembers how it came about; the rules are those of `define` for a key with
its value and of `enter` and `enterElement` for the headers.
-/

namespace Tangle.Toml

/-- How a table came about. -/
inductive Origin where
  /-- By its own header, as the document's root, or as an element of an array of tables. -/
  | header
  /-- By the header of a table inside it. -/
  | implicit
  /-- By a dotted key. -/
  | dotted
  deriving DecidableEq, Repr

/-- A part of a document under construction. -/
inductive Node where
  /-- A value that is complete, inline tables included. -/
  | value (v : Value)
  | table (origin : Origin) (entries : List (Text × Node))
  /-- An array of tables; the last one is the one that still grows. -/
  | tables (before : List (List (Text × Node))) (last : List (Text × Node))

namespace Node

/-- The entries of a table under construction. -/
abbrev Entries := List (Text × Node)

/-- Puts a node in the place of the entry under `key`, or at the end. -/
def put (key : Text) (node : Node) : Entries → Entries
  | [] => [(key, node)]
  | (k, n) :: rest => if k = key then (k, node) :: rest else (k, n) :: put key node rest

/-- The node under a key. -/
def find? (key : Text) (entries : Entries) : Option Node :=
  (entries.find? fun e => e.1 = key).map Prod.snd

/-- Defines a key inside the tables that the dotted path in front of it names. `origin` is how the
table came about whose entries these are, as far as dotted keys are concerned. -/
def defineAt (path : List Text) (key : Text) (v : Value) (dottedTable : Bool)
    (entries : Entries) : Option Entries :=
  match path with
  | [] =>
    if dottedTable && (find? key entries).isNone then some (put key (.value v) entries) else none
  | k :: path =>
    match find? k entries with
    | none => (defineAt path key v true []).map fun es => put k (.table .dotted es) entries
    | some (.table .header _) => none
    | some (.table origin es) =>
      (defineAt path key v (origin = .dotted) es).map fun es => put k (.table origin es) entries
    | some (.tables before last) =>
      (defineAt path key v false last).map fun es => put k (.tables before es) entries
    | some (.value _) => none

/-- Defines a key, which a path of dotted keys may lead to, in a table. -/
def define (path : List Text) (key : Text) (v : Value) (entries : Entries) : Option Entries :=
  match path with
  | [] => if (find? key entries).isNone then some (put key (.value v) entries) else none
  | _ :: _ => defineAt path key v false entries

/-- Changes the entries of the table that the path of a header leads to. -/
def within (path : List Text) (change : Entries → Option Entries) (entries : Entries) :
    Option Entries :=
  match path with
  | [] => change entries
  | k :: path =>
    match find? k entries with
    | none => (within path change []).map fun es => put k (.table .implicit es) entries
    | some (.table origin es) =>
      (within path change es).map fun es => put k (.table origin es) entries
    | some (.tables before last) =>
      (within path change last).map fun es => put k (.tables before es) entries
    | some (.value _) => none

/-- Opens the table with this header. -/
def enter (path : List Text) (key : Text) : Entries → Option Entries :=
  within path fun entries =>
    match find? key entries with
    | none => some (put key (.table .header []) entries)
    | some (.table .implicit es) => some (put key (.table .header es) entries)
    | _ => none

/-- Opens a new element of the array of tables with this header. -/
def enterElement (path : List Text) (key : Text) : Entries → Option Entries :=
  within path fun entries =>
    match find? key entries with
    | none => some (put key (.tables [] []) entries)
    | some (.tables before last) => some (put key (.tables (before ++ [last]) []) entries)
    | _ => none

mutual

/-- The value that a node has become. -/
def finish : Node → Value
  | .value v => v
  | .table _ entries => .table (finishEntries entries)
  | .tables before last => .array (finishAll before ++ [.table (finishEntries last)])

def finishEntries : List (Text × Node) → List (Text × Value)
  | [] => []
  | (k, n) :: rest => (k, finish n) :: finishEntries rest

def finishAll : List (List (Text × Node)) → List Value
  | [] => []
  | entries :: rest => .table (finishEntries entries) :: finishAll rest

end

end Node

end Tangle.Toml
