import SpinnerMarkup.Files.Disk
import SpinnerMarkup.Files.Scan
import SpinnerMarkup.Manifest
import SpinnerMarkup.Store.Batch

/-! Requests: which files to update, and how.

A request names files itself, by a manifest, by a directory to scan, or by several of these. Its
plan is worked out from what can be seen of the surroundings before anything is updated: the text of
the manifest and the entries of the directory. A request without a plan ends there, so a store is
asked for nothing (`run_of_failure`); otherwise the planned batch runs (`run_of_plan`). -/
namespace SpinnerMarkup

inductive Format where
  | text
  | json
  deriving Repr, DecidableEq

/-- The files to update, and how. -/
structure Request where
  /-- Files named one by one. -/
  paths : List Path := []
  /-- The directory that the files are taken from; it has precedence over that of a manifest. -/
  root : Option Path := none
  /-- Where a manifest is. -/
  manifest : Option Path := none
  /-- A directory whose files are updated. -/
  scan : Option Path := none
  /-- The extensions of the files that a scan finds. -/
  extensions : List Text := [['t', 's', 'x'], ['j', 's', 'x']]
  dryRun : Bool := false
  format : Format := .text
  deriving Repr, DecidableEq

/-- What a plan is worked out from. -/
structure Surroundings where
  /-- The text of the file at a path. -/
  text : Path → Except Fault Text
  /-- The entries of the directory at a path, if it is one. -/
  directory? : Path → Option (List (Text × Node))
  /-- The reader of manifests. -/
  manifest : Manifest.Reader := Manifest.yaml

/-- What can be seen of a disk. -/
def Disk.surroundings (d : Disk) : Surroundings := { text := d.read, directory? := d.directory? }

/-- The files to update, in order, and the directory they are taken from. -/
structure Plan where
  root : Path
  paths : List Path
  deriving Repr, DecidableEq

namespace Request

/-- The manifest of a request, if there is one to read. -/
def loadManifest (r : Request) (s : Surroundings) : Except Failure (Option Manifest) :=
  match r.manifest with
  | none => .ok none
  | some path => (Manifest.load path (s.text path) s.manifest).map some

/-- The directory that files are taken from. -/
def rootWith (r : Request) (manifest : Option Manifest) : Path :=
  (r.root.or (manifest.bind (·.root))).getD ⟨['.']⟩

/-- Whether a request says nothing about which files to update. -/
def isEmpty (r : Request) : Bool := r.paths.isEmpty && r.manifest.isNone && r.scan.isNone

/-- The directory that a scan starts from, if there is a scan to make and no manifest fails. -/
def scanStart? (r : Request) (s : Surroundings) : Option Path :=
  match r.loadManifest s with
  | .ok manifest => r.scan.map (r.rootWith manifest).join
  | .error _ => none

/-- The files that a scan finds, if there is one to make. -/
def scanned (r : Request) (s : Surroundings) (root : Path) : Except Failure (List Path) :=
  match r.scan with
  | none => .ok []
  | some dir => scanFiles root dir r.extensions (s.directory? (root.join dir))

/-- The plan of a request. Of several failures, that of the manifest is told first and that of the
scan last. -/
def plan (r : Request) (s : Surroundings) : Except Failure Plan :=
  match r.loadManifest s with
  | .error failure => .error failure
  | .ok manifest =>
    if r.isEmpty then .error .noTargets
    else
      let root := r.rootWith manifest
      match r.scanned s root with
      | .error failure => .error failure
      | .ok found =>
        let listed := (manifest.map (·.files)).getD []
        .ok ⟨root, Path.dedup (r.paths ++ listed ++ found)⟩

def batch (r : Request) (plan : Plan) : Batch := { root := plan.root, dryRun := r.dryRun }

variable {m : Type → Type} [Monad m]

/-- Plans a request and carries the plan out. -/
def run (r : Request) (s : Surroundings) (store : Store m) : m (Except Failure Report) :=
  match r.plan s with
  | .error failure => pure (.error failure)
  | .ok plan => do return .ok (← (r.batch plan).run store plan.paths)

/-- **A request without a plan does nothing but say why.** -/
theorem run_of_failure {r : Request} {s : Surroundings} {failure : Failure} (store : Store m)
    (h : r.plan s = .error failure) : r.run s store = pure (.error failure) := by
  simp [run, h]

/-- **A request with a plan runs the planned batch.** -/
theorem run_of_plan {r : Request} {s : Surroundings} {plan : Plan} (store : Store m)
    (h : r.plan s = .ok plan) :
    r.run s store = do return .ok (← (r.batch plan).run store plan.paths) := by
  simp [run, h]

/-- The report as a request wants it written. -/
def render (r : Request) (report : Report) : Text :=
  match r.format with
  | .text => report.renderText r.dryRun
  | .json => report.renderJson

end Request
end SpinnerMarkup
