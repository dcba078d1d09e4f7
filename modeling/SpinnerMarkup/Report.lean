import SpinnerMarkup.Json
import SpinnerMarkup.Path

/-! Reports: what happened to each file of a batch, and how that is told. -/
namespace SpinnerMarkup

inductive FileStatus where
  /-- Spinners were replaced. -/
  | changed (replacements : Nat) (importAdded : Bool)
  /-- There was nothing to replace. -/
  | skipped
  /-- The file could not be read or written. -/
  | failed (error : Text)
  deriving Repr, DecidableEq

/-- What happened to the file at a path, as the caller wrote the path. -/
structure FileResult where
  path : Path
  status : FileStatus
  deriving Repr, DecidableEq

namespace FileResult

def changed (r : FileResult) : Bool :=
  match r.status with
  | .changed _ _ => true
  | _ => false

def skipped (r : FileResult) : Bool := r.status = .skipped

def error? (r : FileResult) : Option Text :=
  match r.status with
  | .failed error => some error
  | _ => none

/-- One line about the file. A dry run tells what would happen. -/
def line (r : FileResult) (dryRun : Bool) : Text :=
  match r.status with
  | .changed n importAdded =>
    let verb := if dryRun then "would change: ".toList else "changed: ".toList
    let noun := if n = 1 then " spinner".toList else " spinners".toList
    let added := if importAdded then ", import added".toList else []
    verb ++ r.path.text ++ " (".toList ++ Text.ofNat n ++ noun ++ added ++ ")".toList
  | .skipped => "skipped: ".toList ++ r.path.text ++ " (no spinners found)".toList
  | .failed error => "failed: ".toList ++ r.path.text ++ ": ".toList ++ error

def statusFields : FileStatus → List (Text × Json)
  | .changed n importAdded =>
    [("status".toList, .str "changed".toList), ("replacements".toList, .num n),
     ("import_added".toList, .bool importAdded)]
  | .skipped => [("status".toList, .str "skipped".toList)]
  | .failed error => [("status".toList, .str "failed".toList), ("error".toList, .str error)]

/-- An entry as one flat object. -/
def toJson (r : FileResult) : Json :=
  .obj (("path".toList, .str r.path.text) :: statusFields r.status)

end FileResult

/-- What happened to the files of a batch, in their order. -/
structure Report where
  results : List FileResult
  deriving Repr, DecidableEq

namespace Report

def changedCount (r : Report) : Nat := r.results.countP FileResult.changed

def skippedCount (r : Report) : Nat := r.results.countP FileResult.skipped

def failedCount (r : Report) : Nat := r.results.countP (·.error?.isSome)

/-- A line a file, an empty line and a summary. -/
def renderText (r : Report) (dryRun : Bool) : Text :=
  let verb := if dryRun then "Would change ".toList else "Changed ".toList
  (r.results.flatMap fun result => result.line dryRun ++ ['\n']) ++
    "\nDone. ".toList ++ verb ++ Text.ofNat r.changedCount ++ " of ".toList ++
    Text.ofNat r.results.length ++ " files (".toList ++ Text.ofNat r.skippedCount ++
    " skipped, ".toList ++ Text.ofNat r.failedCount ++ " failed).".toList

/-- A report as JSON. -/
def toJson (r : Report) : Json := .obj [("results".toList, .arr (r.results.map FileResult.toJson))]

def renderJson (r : Report) : Text := r.toJson.render

end Report
end SpinnerMarkup
