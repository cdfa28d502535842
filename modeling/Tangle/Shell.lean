import Tangle.Files.Path

/-!
# Shells and their completion scripts

The scripts complete the names of the commands.
-/

namespace Tangle

inductive Shell where
  | bash
  | elvish
  | fish
  | powershell
  | zsh
  deriving DecidableEq, Repr

namespace Shell

def all : List Shell := [bash, elvish, fish, powershell, zsh]

def name : Shell → String
  | bash => "bash"
  | elvish => "elvish"
  | fish => "fish"
  | powershell => "powershell"
  | zsh => "zsh"

/-- The shell with exactly this name. -/
def ofName? (name : Text) : Option Shell := all.find? fun s => s.name.toList = name

/-- The shell whose program is under this path. -/
def ofProgram? (path : Text) : Option Shell :=
  let stem := Path.stem path
  if stem = "powershell_ise".toList then some powershell else ofName? stem

/-- The lines of the script that completes the names of the commands. -/
def completionLines (words : List String) : Shell → List String
  | bash =>
    ["_mdextract() \x7b",
     "    COMPREPLY=($(compgen -W '" ++ " ".intercalate words ++ "' -- \"$2\"))",
     "\x7d",
     "complete -F _mdextract mdextract"]
  | elvish =>
    ["",
     "set edit:completion:arg-completer[mdextract] = \x7b|@words|",
     "    put " ++ " ".intercalate words,
     "\x7d"]
  | fish =>
    ["# Print an optspec for argparse to handle cmd's options that are independent of any " ++
       "subcommand.",
     "complete -c mdextract -n __fish_use_subcommand -f -a '" ++ " ".intercalate words ++ "'"]
  | powershell =>
    ["",
     "Register-ArgumentCompleter -Native -CommandName 'mdextract' -ScriptBlock \x7b",
     "    '" ++ "', '".intercalate words ++ "'",
     "\x7d"]
  | zsh =>
    ["#compdef mdextract",
     "compadd " ++ " ".intercalate words]

end Shell

end Tangle
