import Tangle.Program

/-!
# The outermost layer

Files are those of the operating system, and a report is printed. Everything else is decided by
`run`.
-/

namespace Tangle

/-- The failure that the operating system reports with this number, which may come negated. -/
def FileError.ofCode (code : UInt32) (text : String) : FileError :=
  match (min code (-code)).toNat with
  | 2 => .notFound
  | 17 => .exists
  | 20 => .notDirectory
  | 21 => .isDirectory
  | 36 => .nameTooLong
  | n => .other s!"{text} (os error {n})"

/-- The failure that an error of the system stands for. -/
def FileError.ofSystem : IO.Error → FileError
  | .alreadyExists _ code text => ofCode code text
  | .otherError code text => ofCode code text
  | .resourceBusy code text => ofCode code text
  | .resourceVanished code text => ofCode code text
  | .unsupportedOperation code text => ofCode code text
  | .hardwareFault code text => ofCode code text
  | .unsatisfiedConstraints code text => ofCode code text
  | .illegalOperation code text => ofCode code text
  | .protocolError code text => ofCode code text
  | .timeExpired code text => ofCode code text
  | .interrupted _ code text => ofCode code text
  | .noFileOrDirectory _ code text => ofCode code text
  | .invalidArgument _ code text => ofCode code text
  | .permissionDenied _ code text => ofCode code text
  | .resourceExhausted _ code text => ofCode code text
  | .inappropriateType _ code text => ofCode code text
  | .noSuchThing _ code text => ofCode code text
  | .unexpectedEof => .other "unexpected end of file"
  | .userError text => .other text

/-- Asks the operating system about a path that it can be asked about. -/
def attempt {α : Type} (p : Text) (act : String → IO α) : IO (Except FileError α) := do
  match FileTree.checkPath p with
  | .error e => return .error e
  | .ok () => return (← (act (String.ofList p)).toBaseIO).mapError .ofSystem

/-- Reads the file under a path. -/
def readSystem (p : Text) : IO (Except FileError (List UInt8)) := do
  return (← attempt p fun path => IO.FS.readBinFile path).map ByteArray.toList

/-- The access that three permission bits grant. -/
def accessRight (bits : Nat) : IO.AccessRight :=
  { read := bits.testBit 2, write := bits.testBit 1, execution := bits.testBit 0 }

/-- The access that permission bits grant. -/
def fileRight (mode : Nat) : IO.FileRight :=
  { user := accessRight (mode / 64), group := accessRight (mode / 8), other := accessRight mode }

/-- How a file is opened under a policy. -/
def openMode : WritePolicy → IO.FS.Mode
  | .append => .append
  | .truncate => .write
  | .createNew => .writeNew

/-- Whether there is anything under a path, readable or not. -/
def isThere (p : Text) : IO Bool :=
  return (← attempt p fun path => IO.FS.realPath path).isOk

/-- Whether there is a directory under a path: nothing else has `.` in it. -/
def isDirectory (p : Text) : IO Bool :=
  return (← attempt p fun path => IO.FS.realPath (path ++ "/.")).isOk

/-- The permissions that the process takes off the files that it creates, as the system tells them;
the usual ones where it does not. -/
def processMask : IO Nat := do
  let status := (← (IO.FS.readFile "/proc/self/status").toBaseIO).toOption.getD ""
  let digits := (status.splitOn "\n").findSome? fun line =>
    if line.startsWith "Umask:" then some (line.toList.filter Char.isDigit) else none
  return (digits.bind (Text.number? 8)).getD 0o022

/-- A file cannot be given its mode in the moment in which it is created, so the mode follows at
once. -/
instance : FileAccess IO where
  Handle := IO.FS.Handle
  read := readSystem
  holds := isThere
  holdsFile p := return (← isThere p) && !(← isDirectory p)
  holdsDirectory := isDirectory
  makeDirectory p := attempt p fun path => IO.FS.createDir path
  openFile p policy mode := do
    let created := !(← isThere p)
    attempt p fun path => do
      let file ← IO.FS.Handle.mk path (openMode policy)
      if created then
        let granted := FileTree.grantedMode (← processMask) mode
        IO.setAccessRights path (fileRight granted)
      return file
  extend file bytes := do
    return (← (do file.write ⟨bytes.toArray⟩; file.flush : IO Unit).toBaseIO).mapError .ofSystem

/-- Prints a report and gives back its exit status. -/
def Report.print (r : Report) : IO UInt32 := do
  for line in r.stderr do IO.eprintln line
  IO.print (String.ofList r.stdout)
  (← IO.getStdout).flush
  return r.status.toUInt32

end Tangle

open Tangle in
def main (args : List String) : IO UInt32 := do
  let env : Environment :=
    { directory := (← IO.currentDir).toString.toList
      shell := (← IO.getEnv "SHELL").map String.toList
      log := (← IO.getEnv "RUST_LOG").map String.toList }
  (← run env (args.map String.toList)).print
