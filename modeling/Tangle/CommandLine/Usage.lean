import Tangle.Files.Path
import Tangle.Shell

/-!
# Options and usage errors

The options of the command line, what they are called in messages, and the ways in which a command
line can be wrong.
-/

namespace Tangle.CommandLine

inductive Command where
  | single
  | multi
  | init
  | completions
  deriving DecidableEq, Repr

namespace Command

def all : List Command := [single, multi, init, completions]

def name : Command → String
  | single => "single"
  | multi => "multi"
  | init => "init"
  | completions => "completions"

def ofName? (name : Text) : Option Command := all.find? fun c => c.name.toList = name

end Command

/-- The names that can stand in the place of a command. -/
def commandNames : List String := Command.all.map Command.name ++ ["help"]

inductive OptionName where
  | config
  | noConfig
  | verbose
  | quiet
  | tags
  | excludeTags
  | excludeComments
  | maxCommentDepth
  | fileMode
  | writeMode
  | failOnEmpty
  | output
  | force
  | list
  | help
  | version
  deriving DecidableEq, Repr

namespace OptionName

/-- The name behind two hyphens. -/
def long : OptionName → String
  | config => "config"
  | noConfig => "no-config"
  | verbose => "verbose"
  | quiet => "quiet"
  | tags => "tags"
  | excludeTags => "exclude-tags"
  | excludeComments => "exclude-comments"
  | maxCommentDepth => "max-comment-depth"
  | fileMode => "file-mode"
  | writeMode => "write-mode"
  | failOnEmpty => "fail-on-empty"
  | output => "output"
  | force => "force"
  | list => "list"
  | help => "help"
  | version => "version"

/-- The letter behind one hyphen. -/
def short? : OptionName → Option Char
  | config => some 'c'
  | verbose => some 'v'
  | quiet => some 'q'
  | output => some 'o'
  | help => some 'h'
  | version => some 'V'
  | _ => none

/-- What the value is called, if the option takes one. -/
def valueName? : OptionName → Option String
  | config => some "CONFIG"
  | tags => some "TAGS"
  | excludeTags => some "EXCLUDE_TAGS"
  | maxCommentDepth => some "N"
  | fileMode => some "OCTAL"
  | writeMode => some "MODE"
  | output => some "OUTPUT"
  | _ => none

/-- Whether the option may be given several times. -/
def isRepeatable : OptionName → Bool
  | tags => true
  | excludeTags => true
  | _ => false

/-- The option as messages show it. -/
def display (o : OptionName) : String :=
  match o.valueName? with
  | some v => s!"--{o.long} <{v}>"
  | none => s!"--{o.long}"

/-- The options that every command takes, in front of its name or behind it. -/
def common : List OptionName := [config, noConfig, verbose, quiet, help]

/-- The options that decide what is extracted and how it is written. -/
def filtering : List OptionName :=
  [tags, excludeTags, excludeComments, maxCommentDepth, fileMode, writeMode, failOnEmpty]

/-- The options in front of a command's name, or of a command. -/
def ofCommand : Option Command → List OptionName
  | none => common ++ [version]
  | some .single => filtering ++ [output] ++ common
  | some .multi => filtering ++ common
  | some .init => force :: common
  | some .completions => list :: common

/-- The option that excludes this one. -/
def excludes? : OptionName → Option OptionName
  | config => some noConfig
  | noConfig => some config
  | verbose => some quiet
  | quiet => some verbose
  | _ => none

end OptionName

/-- What the positional arguments of a command are called in messages, if it takes any. -/
def positionalName? : Option Command → Option String
  | some .single => some "<FILES>..."
  | some .multi => some "<FILES>..."
  | some .completions => some "[SHELL]"
  | _ => none

/-- What is wrong with a command line. -/
inductive UsageError where
  | unexpectedArgument (arg : Text)
  | unknownCommand (name : Text)
  | noCommand
  /-- No argument at all, which is answered with the help text. -/
  | noArguments
  | missingValue (what : String)
  | badValue (value : Text) (what : String) (reason : Option String)
  | unneededValue (value : Text) (what : String)
  | repeated (what : String)
  | conflict (what other : String)
  | missingArguments (what : List String)
  deriving DecidableEq, Repr

/-- The lines of the message about a usage error. -/
def UsageError.lines : UsageError → List String
  | .unexpectedArgument arg => [s!"error: unexpected argument '{String.ofList arg}' found"]
  | .unknownCommand name => [s!"error: unrecognized subcommand '{String.ofList name}'"]
  | .noCommand => ["error: 'mdextract' requires a subcommand but one was not provided"]
  | .noArguments => []
  | .missingValue what => [s!"error: a value is required for '{what}' but none was supplied"]
  | .badValue value what reason =>
    [s!"error: invalid value '{String.ofList value}' for '{what}'" ++
      (reason.map fun r => s!": {r}").getD ""]
  | .unneededValue value what =>
    [s!"error: unexpected value '{String.ofList value}' for '{what}' found; no more were expected"]
  | .repeated what => [s!"error: the argument '{what}' cannot be used multiple times"]
  | .conflict what other => [s!"error: the argument '{what}' cannot be used with '{other}'"]
  | .missingArguments what =>
    "error: the following required arguments were not provided:" :: what.map fun w => s!"  {w}"

end Tangle.CommandLine
