import SpinnerMarkup.Path
import SpinnerMarkup.Text.Quoted

/-! What can go wrong, and how it is told.

A fault is why a file could not be read or written; an error says which file it was; a failure ends
a whole run. Each has a message for the reader and a longer form that shows its structure. -/
namespace SpinnerMarkup

/-- Why a file could not be read or written. -/
inductive Fault where
  | notFound
  | notADirectory
  | isADirectory
  | nameTooLong
  | tooManyLinks
  /-- The file holds bytes that are no text. -/
  | notText
  /-- The path holds a null character. -/
  | nullInPath
  /-- Any other reason, in words. -/
  | other (message : Text)
  deriving Repr, DecidableEq

namespace Fault

/-- The number, the kind and the words the system has for a fault, if it is the system's. -/
def system? : Fault → Option (Nat × String × String)
  | .notFound => some (2, "NotFound", "No such file or directory")
  | .notADirectory => some (20, "NotADirectory", "Not a directory")
  | .isADirectory => some (21, "IsADirectory", "Is a directory")
  | .nameTooLong => some (36, "InvalidFilename", "File name too long")
  | .tooManyLinks => some (40, "FilesystemLoop", "Too many levels of symbolic links")
  | .notText | .nullInPath | .other _ => none

/-- The kind and the words of a fault that is not the system's. -/
def plain : Fault → String × Text
  | .notText => ("InvalidData", "stream did not contain valid UTF-8".toList)
  | .nullInPath => ("InvalidInput", "file name contained an unexpected NUL byte".toList)
  | .other message => ("Other", message)
  | _ => ("Other", [])

def message (f : Fault) : Text :=
  match f.system? with
  | some (code, _, words) => words.toList ++ " (os error ".toList ++ Text.ofNat code ++ ")".toList
  | none => f.plain.2

def detail (f : Fault) : Text :=
  match f.system? with
  | some (code, kind, words) =>
    "Os \x7b code: ".toList ++ Text.ofNat code ++ ", kind: ".toList ++ kind.toList ++
      ", message: ".toList ++ Text.quote words.toList ++ " \x7d".toList
  | none =>
    "Error \x7b kind: ".toList ++ f.plain.1.toList ++ ", message: ".toList ++
      Text.quote f.plain.2 ++ " \x7d".toList

end Fault

inductive Error where
  | io (cause : Fault)
  | read (path : Path) (cause : Fault)
  | write (path : Path) (cause : Fault)
  /-- A manifest that cannot be understood. -/
  | manifest (message : Text)
  | general (message : Text)
  deriving Repr, DecidableEq

namespace Error

def message : Error → Text
  | .io cause => "IO Error: ".toList ++ cause.message
  | .read path cause => "Failed to read ".toList ++ path.text ++ ": ".toList ++ cause.message
  | .write path cause => "Failed to write ".toList ++ path.text ++ ": ".toList ++ cause.message
  | .manifest message => "Manifest Error: ".toList ++ message
  | .general message => "General Error: ".toList ++ message

def fileDetail (path : Path) (cause : Fault) : Text :=
  " \x7b path: ".toList ++ Text.quote path.text ++ ", source: ".toList ++ cause.detail ++
    " \x7d".toList

def detail : Error → Text
  | .io cause => "Io(".toList ++ cause.detail ++ ")".toList
  | .read path cause => "Read".toList ++ fileDetail path cause
  | .write path cause => "Write".toList ++ fileDetail path cause
  | .manifest message => "Manifest(".toList ++ Text.quote message ++ ")".toList
  | .general message => "General(".toList ++ Text.quote message ++ ")".toList

end Error

/-- What ends a run before any file is updated. -/
inductive Failure where
  /-- An error with a file the run itself needs. -/
  | core (error : Error)
  | general (message : Text)
  deriving Repr, DecidableEq

namespace Failure

/-- Nothing says which files to update. -/
def noTargets : Failure := .general "No target files: pass paths, --manifest or --scan".toList

def scanNotFound (start : Path) : Failure :=
  .general ("Scan directory not found: ".toList ++ Text.quote start.text)

def message : Failure → Text
  | .core error => error.message
  | .general message => "Operation failed: ".toList ++ message

def detail : Failure → Text
  | .core error => "Core(".toList ++ error.detail ++ ")".toList
  | .general message => "General(".toList ++ Text.quote message ++ ")".toList

end Failure
end SpinnerMarkup
