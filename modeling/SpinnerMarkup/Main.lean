import SpinnerMarkup.CommandLine.Command

/-! The program: the files of this computer behind the command line.

Everything is decided elsewhere. What a plan needs to see is looked up first; then the command runs
on a store that reads and writes files. -/
namespace SpinnerMarkup.Host

/-- A number of the system, which may come with its sign turned. -/
def plainCode (code : UInt32) : Nat :=
  if code < 0x80000000 then code.toNat else (0 - code).toNat

/-- The system's number for an error and its words, if it has one. -/
def codeOf? : IO.Error → Option (Nat × String)
  | .alreadyExists _ code words | .otherError code words | .resourceBusy code words
  | .resourceVanished code words | .unsupportedOperation code words | .hardwareFault code words
  | .unsatisfiedConstraints code words | .illegalOperation code words | .protocolError code words
  | .timeExpired code words | .interrupted _ code words | .noFileOrDirectory _ code words
  | .invalidArgument _ code words | .permissionDenied _ code words
  | .resourceExhausted _ code words | .inappropriateType _ code words
  | .noSuchThing _ code words => some (plainCode code, words)
  | .unexpectedEof | .userError _ => none

def faultOf (e : IO.Error) : Fault :=
  match codeOf? e with
  | some (2, _) => .notFound
  | some (20, _) => .notADirectory
  | some (21, _) => .isADirectory
  | some (36, _) => .nameTooLong
  | some (40, _) => .tooManyLinks
  | some (code, words) =>
    .other (words.toList ++ " (os error ".toList ++ Text.ofNat code ++ ")".toList)
  | none => .other (toString e).toList

/-- The result of an action, or the fault that stopped it. -/
def attempt {α : Type} (action : IO α) : IO (Except Fault α) := do
  try return .ok (← action) catch e => return .error (faultOf e)

def readText (path : Path) : IO (Except Fault Text) := do
  if path.text.elem '\x00' then return .error .nullInPath
  match ← attempt (IO.FS.readBinFile (String.ofList path.text)) with
  | .error fault => return .error fault
  | .ok bytes =>
    match Contents.ofBytes bytes with
    | .text t => return .ok t
    | .raw _ => return .error .notText

def writeText (path : Path) (t : Text) : IO (Except Fault Unit) :=
  attempt (IO.FS.writeBinFile (String.ofList path.text) (String.ofList t).toUTF8)

def store : Store IO := ⟨readText, writeText⟩

/-- The entries of a directory with everything below them; what files hold is left out. -/
partial def entriesBelow (dir : IO.FS.DirEntry) : IO (List (Text × Node)) := do
  let entries ← dir.path.readDir
  entries.toList.mapM fun entry => do
    let name := entry.fileName.toList
    let node ← match (← entry.path.symlinkMetadata).type with
      | .dir =>
        if Node.skippedNames.elem name then pure (.dir [])
        else try pure (.dir (← entriesBelow entry)) catch _ => pure (.dir [])
      | .file => pure (.file (.text []))
      | _ => pure (.link [])
    return (name, node)

/-- The entries of the directory at a path, if it is one. -/
def directory? (path : Path) : IO (Option (List (Text × Node))) := do
  if path.text.elem '\x00' then return none
  try return some (← entriesBelow ⟨String.ofList path.text, "."⟩) catch _ => return none

/-- What a request needs to see. -/
def look (r : Request) : IO Surroundings := do
  let text ← match r.manifest with
    | some path => readText path
    | none => pure (.error .notFound)
  let s : Surroundings := { text := fun _ => text, directory? := fun _ => none }
  let entries ← match r.scanStart? s with
    | some start => directory? start
    | none => pure none
  return { s with directory? := fun _ => entries }

/-- What arguments need to see. -/
def lookFor (arguments : List Text) : IO Surroundings :=
  match CommandLine.Command.ofArguments arguments with
  | .ok (.fix request) => look request
  | _ => pure { text := fun _ => .error .notFound, directory? := fun _ => none }

end SpinnerMarkup.Host

open SpinnerMarkup in
/-- Runs a command line and gives its exit code. -/
def main (args : List String) : IO UInt32 := do
  let arguments := args.map String.toList
  let outcome ← CommandLine.run arguments (← Host.lookFor arguments) Host.store
  IO.print (String.ofList outcome.output)
  if let some e := outcome.error then IO.eprintln (String.ofList e)
  return UInt32.ofNat outcome.code
