import Tangle.CommandLine.Usage

/-!
# Help texts
-/

namespace Tangle.CommandLine

/-- What a command does, in one line. -/
def Command.about : Command → String
  | .single => "Concatenate matching code blocks into one output"
  | .multi => "Write matching code blocks to the files named by their `file=` tag"
  | .init => "Create a default .mdextract.toml in the current directory"
  | .completions => "Generate shell completion scripts"

/-- What an option does, in one line. -/
def OptionName.about : OptionName → String
  | .config => "Configuration file path"
  | .noConfig => "Ignore any configuration file"
  | .verbose => "Show debug logging"
  | .quiet => "Only log errors"
  | .tags => "Only extract code blocks carrying all of these tags (comma-separated)"
  | .excludeTags => "Skip code blocks carrying any of these tags (comma-separated)"
  | .excludeComments => "Do not extract code blocks inside HTML comments"
  | .maxCommentDepth =>
    "Stop unwrapping HTML comments nested deeper than N levels (unlimited by default)"
  | .fileMode => "Permission bits for created files, in octal (e.g. 0600)"
  | .writeMode =>
    "What to do with output files that already exist: append, truncate or create-new"
  | .failOnEmpty => "Exit with code 1 if no code block was extracted"
  | .output => "Output file ('-' for stdout) [default: -]"
  | .force => "Overwrite an existing configuration file"
  | .list => "List available shells"
  | .help => "Print help"
  | .version => "Print version"

/-- What the positional arguments of a command are, in one line. -/
def Command.positionalAbout : Command → String
  | .completions => "Shell to generate completions for (detected from $SHELL if omitted) " ++
      "[possible values: " ++ ", ".intercalate (Shell.all.map Shell.name) ++ "]"
  | _ => "Markdown files to extract from, processed in the order given"

/-- Text filled up with spaces to a width. -/
def padRight (width : Nat) (s : String) : String :=
  s ++ String.ofList (List.replicate (width - s.length) ' ')

/-- Names with their explanations, in two columns. -/
def columns (rows : List (String × String)) : List String :=
  let width := (rows.map fun r => r.1.length).foldl max 0
  rows.map fun (name, about) => s!"  {padRight width name}  {about}"

/-- An option with its letter, as the list of options shows it. -/
def OptionName.row (o : OptionName) : String × String :=
  let short := match o.short? with
    | some c => s!"-{c}, "
    | none => "    "
  (short ++ o.display, o.about)

/-- The lines of the help text for a command, or for all of them. -/
def helpLines (command : Option Command) : List String :=
  let options := "" :: "Options:" :: columns ((OptionName.ofCommand command).map OptionName.row)
  match command with
  | none =>
    ["Extract fenced code blocks from Markdown into one stream or many files", "",
      "Usage: mdextract [OPTIONS] <COMMAND>", "", "Commands:"] ++
    columns (Command.all.map (fun c => (c.name, c.about)) ++
      [("help", "Print this message or the help of the given subcommand(s)")]) ++ options
  | some c =>
    let (usage, arguments) := match positionalName? command with
      | some p => (s!" {p}", "" :: "Arguments:" :: columns [(p, c.positionalAbout)])
      | none => ("", [])
    [c.about, "", s!"Usage: mdextract {c.name} [OPTIONS]{usage}"] ++ arguments ++ options

end Tangle.CommandLine
