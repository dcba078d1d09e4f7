import SpinnerMarkup.Request
import SpinnerMarkup.Proofs.TargetPaths

/-! What a request is refused for, and what its report is about.

A request is planned before anything is updated. It is refused for a manifest that cannot be loaded, for
saying nothing about which files to update, or for a directory to scan that is none, in this order
(`Refused`); `plan_eq_error_iff` says that planning fails for these reasons only. A refused request ends
there: its run is the failure itself, whatever the store, so nothing is read or written. Any other request
runs a batch, whose report has an entry for the first of each of the paths that are the same, in the
order in which the request, its manifest and its scan give them (`run_drives`). -/
namespace SpinnerMarkup

/-- What loading a manifest that could be read comes to, by what reading its text as one does. -/
theorem Manifest.load_ok (path : Path) (text : Text) (reader : Manifest.Reader) :
    Manifest.load path (.ok text) reader = match reader text with
      | .error message => .error (.core (.manifest (path.text ++ ": ".toList ++ message)))
      | .ok m => .ok (m.locatedAt path) := by
  unfold Manifest.load
  rfl

namespace Request

/-! ### What a request goes by -/

/-- What the manifest of a request says and where the manifest is, if the request names one. -/
inductive Reads (r : Request) (s : Surroundings) : Option (Path × Manifest) → Prop where
  | nothing (named : r.manifest = none) : Reads r s none
  | listed {path : Path} {text : Text} {m : Manifest} (named : r.manifest = some path)
      (seen : s.text path = .ok text) (read : s.manifest text = .ok m) : Reads r s (some (path, m))

/-- The files that a manifest lists. -/
def listedFiles : Option (Path × Manifest) → List Path
  | some (_, m) => m.files
  | none => []

/-- The directory that files are taken from: that of the request, or else that of its manifest, seen from
the manifest's own directory, or else the current one. -/
def rootOf (r : Request) (listed : Option (Path × Manifest)) : Path :=
  match r.root, listed with
  | some root, _ => root
  | none, some (path, ⟨some root, _⟩) => if root.isAbsolute then root else path.parent.join root
  | none, some (_, ⟨none, _⟩) => ⟨['.']⟩
  | none, none => ⟨['.']⟩

/-- What the scan of a request finds from a root, if there is one to make. -/
inductive Scans (r : Request) (s : Surroundings) (root : Path) : List Path → Prop where
  | nothing (named : r.scan = none) : Scans r s root []
  | found {dir : Path} {entries : List (Text × Node)} {found : List Path} (named : r.scan = some dir)
      (directory : s.directory? (root.join dir) = some entries)
      (scan : scanFiles root dir r.extensions (some entries) = .ok found) : Scans r s root found

/-! ### What a request is refused for -/

/-- Why the manifest of a request cannot be loaded. -/
inductive Unloadable (r : Request) (s : Surroundings) : Failure → Prop where
  | unread {path : Path} {cause : Fault} (named : r.manifest = some path)
      (seen : s.text path = .error cause) : Unloadable r s (.core (.read path cause))
  | malformed {path : Path} {text message : Text} (named : r.manifest = some path)
      (seen : s.text path = .ok text) (read : s.manifest text = .error message) :
      Unloadable r s (.core (.manifest (path.text ++ ": ".toList ++ message)))

/-- Why a request is refused. Its scan counts only once its manifest is loaded. -/
inductive Refused (r : Request) (s : Surroundings) : Failure → Prop where
  | manifest {failure : Failure} (unloadable : Unloadable r s failure) : Refused r s failure
  | noTargets (paths : r.paths = []) (manifest : r.manifest = none) (scan : r.scan = none) :
      Refused r s .noTargets
  | noDirectory {listed : Option (Path × Manifest)} {dir : Path} (reads : Reads r s listed)
      (named : r.scan = some dir) (directory : s.directory? ((r.rootOf listed).join dir) = none) :
      Refused r s (.scanNotFound ((r.rootOf listed).join dir))

/-! ### Planning -/

variable {r : Request} {s : Surroundings}

/-- A manifest with its root seen from where it is. -/
def located (listed : Option (Path × Manifest)) : Option Manifest :=
  listed.map fun entry => entry.2.locatedAt entry.1

theorem rootWith_located (r : Request) (listed : Option (Path × Manifest)) :
    r.rootWith (located listed) = r.rootOf listed := by
  unfold rootWith rootOf
  cases r.root with
  | some root => rfl
  | none =>
    match listed with
    | none => rfl
    | some (path, ⟨none, files⟩) => rfl
    | some (path, ⟨some root, files⟩) => rfl

theorem files_located (listed : Option (Path × Manifest)) :
    ((located listed).map (·.files)).getD [] = listedFiles listed := by
  cases listed <;> rfl

theorem loadManifest_of_named {path : Path} (h : r.manifest = some path) :
    r.loadManifest s = (Manifest.load path (s.text path) s.manifest).map some := by
  rw [loadManifest, h]

theorem loadManifest_of_unloadable {failure : Failure} (h : Unloadable r s failure) :
    r.loadManifest s = .error failure := by
  cases h with
  | unread named seen =>
    rw [loadManifest_of_named named, seen]
    rfl
  | malformed named seen read => rw [loadManifest_of_named named, seen, Manifest.load_ok, read]; rfl

theorem loadManifest_of_reads {listed : Option (Path × Manifest)} (h : Reads r s listed) :
    r.loadManifest s = .ok (located listed) := by
  cases h with
  | nothing named => rw [loadManifest, named, located, Option.map_none]
  | listed named seen read => rw [loadManifest_of_named named, seen, Manifest.load_ok, read]; rfl

theorem unloadable_or_reads (r : Request) (s : Surroundings) :
    (∃ failure, Unloadable r s failure) ∨ ∃ listed, Reads r s listed := by
  cases hmanifest : r.manifest with
  | none => exact .inr ⟨none, .nothing hmanifest⟩
  | some path =>
    cases htext : s.text path with
    | error cause => exact .inl ⟨_, .unread hmanifest htext⟩
    | ok text =>
      cases hread : s.manifest text with
      | error message => exact .inl ⟨_, .malformed hmanifest htext hread⟩
      | ok m => exact .inr ⟨_, .listed hmanifest htext hread⟩

theorem isEmpty_iff : r.isEmpty = true ↔ r.paths = [] ∧ r.manifest = none ∧ r.scan = none := by
  simp [isEmpty, and_assoc]

theorem plan_of_reads {listed : Option (Path × Manifest)} (h : Reads r s listed)
    (hempty : ¬ r.isEmpty = true) :
    r.plan s = (r.scanned s (r.rootOf listed)).map fun found =>
      ⟨r.rootOf listed, Path.firsts (r.paths ++ listedFiles listed ++ found)⟩ := by
  rw [plan, loadManifest_of_reads h]
  dsimp only
  rw [if_neg hempty, rootWith_located, files_located]
  cases r.scanned s (r.rootOf listed) with
  | error failure => rfl
  | ok found => simp only [Path.dedup_eq_firsts, Except.map]

theorem plan_of_refused {failure : Failure} (h : Refused r s failure) : r.plan s = .error failure := by
  cases h with
  | manifest unloadable => rw [plan, loadManifest_of_unloadable unloadable]
  | noTargets paths manifest scan =>
    have hempty : r.isEmpty = true := isEmpty_iff.2 ⟨paths, manifest, scan⟩
    rw [plan, loadManifest_of_reads (.nothing manifest)]
    dsimp only
    rw [if_pos hempty]
  | noDirectory reads named directory =>
    have hempty : ¬ r.isEmpty = true := fun h => by
      rw [(isEmpty_iff.1 h).2.2] at named
      cases named
    rw [plan_of_reads reads hempty, scanned, named]
    simp [scanFiles, directory, Except.map]

/-- A request that is not refused has a plan. -/
theorem exists_plan (h : ∀ failure, ¬ Refused r s failure) :
    ∃ listed found, Reads r s listed ∧ Scans r s (r.rootOf listed) found ∧
      r.plan s = .ok ⟨r.rootOf listed, Path.firsts (r.paths ++ listedFiles listed ++ found)⟩ := by
  obtain ⟨failure, hunloadable⟩ | ⟨listed, hreads⟩ := unloadable_or_reads r s
  · exact absurd (.manifest hunloadable) (h failure)
  · have hempty : ¬ r.isEmpty = true := fun hempty => by
      obtain ⟨hpaths, hmanifest, hscan⟩ := isEmpty_iff.1 hempty
      exact h _ (.noTargets hpaths hmanifest hscan)
    have hplan := plan_of_reads hreads hempty
    cases hscan : r.scan with
    | none =>
      rw [scanned, hscan] at hplan
      exact ⟨listed, [], hreads, .nothing hscan, hplan⟩
    | some dir =>
      cases hdirectory : s.directory? ((r.rootOf listed).join dir) with
      | none => exact absurd (.noDirectory hreads hscan hdirectory) (h _)
      | some entries =>
        rw [scanned, hscan] at hplan
        dsimp only at hplan
        rw [hdirectory] at hplan
        exact ⟨listed, _, hreads, .found hscan hdirectory rfl, hplan⟩

/-- **Planning fails for the reasons a request is refused for, and no other.** -/
theorem plan_eq_error_iff {failure : Failure} : r.plan s = .error failure ↔ Refused r s failure := by
  refine ⟨fun h => ?_, plan_of_refused⟩
  by_contra hnot
  have hnone : ∀ other, ¬ Refused r s other := fun other hother => by
    obtain rfl := Except.error.inj ((plan_of_refused hother).symm.trans h)
    exact hnot hother
  obtain ⟨listed, found, -, -, hplan⟩ := exists_plan hnone
  rw [hplan] at h
  cases h

end Request

/-! ### Reports -/

/-- **A report has one entry for each target, in order**, whatever the store. -/
theorem Batch.results_paths {σ : Type} (b : Batch) (store : Store (StateM σ)) (paths : List Path) (t : σ) :
    ((b.run store paths).run t).1.results.map FileResult.path = paths := by
  induction paths generalizing t with
  | nil => rfl
  | cons path paths ih =>
    have hcons : ((b.run store (path :: paths)).run t).1.results.map FileResult.path = path ::
        ((b.run store paths).run ((b.updateStatus store path).run t).2).1.results.map FileResult.path := by
      simp only [run, List.mapM_cons]
      rfl
    rw [hcons, ih]

namespace Request

/-- What the run of a request comes to. -/
structure Drives (r : Request) (s : Surroundings) : Prop where
  /-- A refused request asks no store for anything: its run is the failure itself. -/
  refused : ∀ failure, Refused r s failure →
    ∀ {m : Type → Type} [Monad m] (store : Store m), r.run s store = pure (.error failure)
  /-- A run fails with what the request is refused for, and otherwise not. -/
  fails : ∀ {σ : Type} (store : Store (StateM σ)) (t : σ) (failure : Failure),
    ((r.run s store).run t).1 = .error failure ↔ Refused r s failure
  /-- The report of any other request is that of a batch from the root of the request, on the first of each
  of the paths that are the same. -/
  reports : (∀ failure, ¬ Refused r s failure) →
    ∃ listed found, Reads r s listed ∧ Scans r s (r.rootOf listed) found ∧
      ∀ {σ : Type} (store : Store (StateM σ)) (t : σ), ∃ report t',
        (r.run s store).run t = (.ok report, t') ∧
          report.results.map FileResult.path =
            Path.firsts (r.paths ++ listedFiles listed ++ found) ∧
          (({ root := r.rootOf listed, dryRun := r.dryRun } : Batch).run store
            (Path.firsts (r.paths ++ listedFiles listed ++ found))).run t = (report, t')

theorem run_eq_error_iff {σ : Type} (store : Store (StateM σ)) (t : σ) (failure : Failure) :
    ((r.run s store).run t).1 = .error failure ↔ Refused r s failure := by
  rw [← plan_eq_error_iff]
  cases hplan : r.plan s with
  | error other =>
    rw [run_of_failure store hplan]
    exact ⟨fun h => congrArg _ (Except.error.inj h), fun h => congrArg _ (Except.error.inj h)⟩
  | ok plan =>
    rw [run_of_plan store hplan]
    exact iff_of_false (fun h => by cases h) (fun h => by cases h)

/-- **A request is refused before its batch, or else reports on every path it gives, once each.** -/
theorem run_drives (r : Request) (s : Surroundings) : Drives r s where
  refused _ h _ _ store := run_of_failure store (plan_of_refused h)
  fails := run_eq_error_iff
  reports hnone := by
    obtain ⟨listed, found, hreads, hscans, hplan⟩ := exists_plan hnone
    refine ⟨listed, found, hreads, hscans, fun store t => ⟨_, _, ?_, Batch.results_paths _ store _ t, rfl⟩⟩
    rw [run_of_plan store hplan]
    rfl

end Request
end SpinnerMarkup
