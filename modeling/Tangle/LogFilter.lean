import Tangle.Text

/-!
# Which messages are logged

A log specification is a list of directives with commas between them. A directive gives the level up
to which messages are shown, for all of them or for those whose origin begins with a name; of
several that apply, the one with the longest name counts. Behind a slash may stand a word that a
message has to hold.
-/

namespace Tangle

/-- How much is logged; each level includes those before it. -/
inductive LogLevel where
  | off
  | error
  | warn
  | info
  | debug
  | trace
  deriving DecidableEq, Repr

namespace LogLevel

def rank : LogLevel → Nat
  | off => 0
  | error => 1
  | warn => 2
  | info => 3
  | debug => 4
  | trace => 5

def name : LogLevel → String
  | off => "off"
  | error => "error"
  | warn => "warn"
  | info => "info"
  | debug => "debug"
  | trace => "trace"

/-- The level with this name, in whatever case. -/
def ofName? (s : Text) : Option LogLevel :=
  [off, error, warn, info, debug, trace].find? fun l => l.name.toList = s.map Char.toLower

end LogLevel

structure LogDirective where
  /-- What the origin of a message has to begin with; anything if it is empty. -/
  origin : Text
  level : LogLevel
  deriving DecidableEq, Repr

structure LogFilter where
  directives : List LogDirective
  /-- What a message has to hold. -/
  word : Text := []
  deriving DecidableEq, Repr

namespace LogFilter

/-- Everything up to a level. -/
def upTo (level : LogLevel) : LogFilter := ⟨[⟨[], level⟩], []⟩

/-- Reads one directive; the text of a complaint if it is malformed. -/
def readDirective (s : Text) : Except Text LogDirective :=
  match s.splitOn '=' with
  | [a] =>
    match LogLevel.ofName? a with
    | some level => .ok ⟨[], level⟩
    | none => .ok ⟨a, .trace⟩
  | [a, b] =>
    if (Text.trim b).isEmpty then .ok ⟨a, .trace⟩
    else
      match LogLevel.ofName? (Text.trim b) with
      | some level => .ok ⟨a, level⟩
      | none => .error (Text.trim b)
  | _ => .error s

/-- Adds a directive, in the place of one for the same origin. -/
def addDirective (ds : List LogDirective) (d : LogDirective) : List LogDirective :=
  if ds.any fun e => e.origin = d.origin then
    ds.map fun e => if e.origin = d.origin then d else e
  else ds ++ [d]

/-- Reads a specification, and the complaints about the parts that are left out. -/
def parse (spec : Text) : LogFilter × List String :=
  let complaint (s : Text) (why : String) : String :=
    s!"warning: invalid logging spec '{String.ofList s}'{why}, ignoring it"
  match spec.splitOn '/' with
  | list :: rest =>
    if rest.length > 1 then (upTo .error, [complaint spec " (too many '/'s)"])
    else
      let read := (((list.splitOn ',').map Text.trim).filter fun s => !s.isEmpty).map readDirective
      let ds := (read.filterMap fun r => r.toOption).foldl addDirective []
      let faults := read.filterMap fun
        | .error s => some (complaint s "")
        | .ok _ => none
      (⟨if ds.isEmpty then [⟨[], .error⟩] else ds, rest.head?.getD []⟩, faults)
  | [] => (upTo .error, [])

/-- Whether a message is shown. -/
def shows (f : LogFilter) (level : LogLevel) (origin message : Text) : Bool :=
  let longest (best : Option LogDirective) (d : LogDirective) : Option LogDirective :=
    if d.origin.isPrefixOf origin then
      match best with
      | some b => if b.origin.length ≤ d.origin.length then some d else some b
      | none => some d
    else best
  match f.directives.foldl longest none with
  | some d => level.rank ≤ d.level.rank && f.word.occursIn message
  | none => false

end LogFilter

end Tangle
