import SpinnerMarkup.Error
import SpinnerMarkup.Report
import SpinnerMarkup.Update

/-! Updating files one after another.

A store is where texts are read from and written to. A file is read once; it is written once when
its text has an update and the run is not dry, and otherwise not at all. What goes wrong with a file,
be it with its text or with the store, is told in its entry and stops nothing. -/
namespace SpinnerMarkup

/-- Where texts come from and go to, in some context `m`. -/
structure Store (m : Type → Type) where
  /-- The whole text at a path. -/
  read : Path → m (Except Fault Text)
  /-- Replaces the whole text at a path. -/
  write : Path → Text → m (Except Fault Unit)

structure Batch where
  settings : Settings := {}
  /-- The directory that target paths are taken from. -/
  root : Path := ⟨['.']⟩
  /-- Whether results are worked out without writing anything. -/
  dryRun : Bool := false

namespace Batch

variable {m : Type → Type} [Monad m]

/-- Updates the file at a path, as far as it can be, and says what happened. -/
def updateStatus (b : Batch) (store : Store m) (path : Path) : m FileStatus := do
  let target := b.root.join path
  match ← store.read target with
  | .error cause => return .failed (Error.read target cause).message
  | .ok source =>
    match b.settings.update source with
    | .error error => return .failed error.message
    | .ok none => return .skipped
    | .ok (some update) =>
      let done := FileStatus.changed update.replacements update.importAdded
      if b.dryRun then return done
      else
        match ← store.write target update.text with
        | .error cause => return .failed (Error.write target cause).message
        | .ok () => return done

/-- The entry for one file. -/
def updateFile (b : Batch) (store : Store m) (path : Path) : m FileResult := do
  return ⟨path, ← b.updateStatus store path⟩

/-- The entries of all files, one after another. -/
def run (b : Batch) (store : Store m) (paths : List Path) : m Report := do
  return ⟨← paths.mapM (b.updateFile store)⟩

end Batch
end SpinnerMarkup
