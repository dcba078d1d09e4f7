import SpinnerMarkup.Proofs.Turn
import SpinnerMarkup.Proofs.UpdateOutcome

/-! What a run of a batch does to the store and what it reports.

A run is a chain of visits, one for each target in order: a visit finds the store as the visit before
it left it. `run_accounts` says that every visit does what its entry says (one read, and one write
where something is due and the run is not dry; nothing is due for a text that cannot be updated), and
what follows for the whole run: the record of accesses is made of the visits' accesses, a key under
which no write went through holds what it held, and any other key holds the text of its last write.
Targets may repeat, so a visit may find what an earlier one wrote. -/
namespace SpinnerMarkup

/-! ### Visits -/

/-- One file's part in a run: its target, the store it finds, its entry and the store it leaves. -/
structure Visit where
  path : Path
  found : Memory
  entry : FileResult
  left : Memory

namespace Visit

/-- What a visit does, and that its entry says so. -/
structure Faithful (b : Batch) (v : Visit) : Prop where
  path : v.entry.path = v.path
  /-- One read, then one write exactly when an update is due and the run is not dry. -/
  log : v.left.log = v.found.log ++ .read (b.key v.path) ::
    ((b.sent? v.found v.path).map fun _ => .write (b.key v.path)).toList
  changed : ∀ n added, v.entry.status = .changed n added ↔
    ∃ u, b.due? v.found v.path = some u ∧ (b.dryRun = true ∨ b.written? v.found v.path = some u) ∧
      u.replacements = n ∧ u.importAdded = added
  skipped : v.entry.status = .skipped ↔
    ∃ source, v.found.get? (b.key v.path) = some source ∧ b.settings.update source = .ok none
  /-- The text cannot be read or written, or it is to be changed and the module has no pattern. -/
  failed : ∀ error, v.entry.status = .failed error ↔
    (v.found.get? (b.key v.path) = none ∧
        (Error.read (b.root.join v.path) Memory.missing).message = error) ∨
      (∃ source, v.found.get? (b.key v.path) = some source ∧
        (b.settings.catalog.apply source).changed = true ∧
        ∃ why, b.settings.refusals b.settings.module = some why ∧
          (Import.invalidModule b.settings.module why).message = error) ∨
      (b.sent? v.found v.path ≠ none ∧ b.written? v.found v.path = none ∧
        (Error.write (b.root.join v.path) Memory.readOnly).message = error)
  wrote : ∀ u, b.written? v.found v.path = some u → v.left.get? (b.key v.path) = some u.text
  kept : ∀ k, (b.key v.path = k → b.written? v.found v.path = none) → v.left.get? k = v.found.get? k
  locked : v.left.locked = v.found.locked

/-- The visit of a file that finds a store. -/
def of (b : Batch) (s : Memory) (path : Path) : Visit := ⟨path, s, b.entry s path, b.after s path⟩

theorem faithful_of (b : Batch) (s : Memory) (path : Path) : (of b s path).Faithful b := by
  obtain ⟨status, s', h⟩ := b.exists_turn path s
  have he : b.entry s path = ⟨path, status⟩ := h.entry_eq
  have hlog : (b.after s path).log = s.log ++ b.calls s path := by rw [b.after_eq]
  exact {
    path := by rw [of, he]
    log := hlog
    changed := by rw [of, he]; exact h.changed_iff
    skipped := by rw [of, he]; exact h.skipped_iff
    failed := fun error => by
      simp only [of, he, h.failed_iff, Settings.exists_update_eq_error_iff]
    wrote := fun u hu => Batch.get?_after_of_written hu
    kept := fun k hk => Batch.get?_after_of_not_written hk
    locked := b.locked_after s path }

end Visit

/-! ### Chains of visits -/

/-- Visits that follow each other: each finds the store as the one before it left it. -/
inductive Chained : Memory → List Visit → Memory → Prop where
  | nil (s : Memory) : Chained s [] s
  | cons {v : Visit} {vs : List Visit} {s' : Memory} :
      Chained v.left vs s' → Chained v.found (v :: vs) s'

namespace Chained

theorem of_append {s s' : Memory} {vs ws : List Visit} (h : Chained s (vs ++ ws) s') :
    ∃ t, Chained s vs t ∧ Chained t ws s' := by
  induction vs generalizing s with
  | nil => exact ⟨s, .nil s, h⟩
  | cons v vs ih =>
    cases h with
    | cons h =>
      obtain ⟨t, hvs, hws⟩ := ih h
      exact ⟨t, .cons hvs, hws⟩

/-- The record of a run is made of the visits' accesses. -/
theorem log_eq {b : Batch} {s s' : Memory} {vs : List Visit} (h : Chained s vs s')
    (hf : ∀ v ∈ vs, v.Faithful b) :
    s'.log = s.log ++ vs.flatMap fun v => b.calls v.found v.path := by
  induction h with
  | nil s => simp
  | @cons v vs s' h ih =>
    obtain ⟨hv, hvs⟩ := List.forall_mem_cons.1 hf
    rw [ih hvs, hv.log, List.flatMap_cons, List.append_assoc]
    rfl

/-- A key under which no write goes through holds what it held. -/
theorem get?_kept {b : Batch} {s s' : Memory} {vs : List Visit} {k : Text} (h : Chained s vs s')
    (hf : ∀ v ∈ vs, v.Faithful b)
    (hk : ∀ v ∈ vs, b.key v.path = k → b.written? v.found v.path = none) : s'.get? k = s.get? k := by
  induction h with
  | nil s => rfl
  | cons h ih =>
    obtain ⟨hv, hvs⟩ := List.forall_mem_cons.1 hf
    obtain ⟨hkv, hkvs⟩ := List.forall_mem_cons.1 hk
    rw [ih hvs hkvs, hv.kept k hkv]

/-- The last write that goes through under a key is what the key holds. -/
theorem get?_last {b : Batch} {s s' : Memory} {vs ws : List Visit} {v : Visit} {u : Update}
    (h : Chained s (vs ++ v :: ws) s') (hf : ∀ w ∈ vs ++ v :: ws, w.Faithful b)
    (hu : b.written? v.found v.path = some u)
    (hlast : ∀ w ∈ ws, b.key w.path = b.key v.path → b.written? w.found w.path = none) :
    s'.get? (b.key v.path) = some u.text := by
  obtain ⟨t, -, hrest⟩ := h.of_append
  obtain ⟨-, hf⟩ := List.forall_mem_append.1 hf
  obtain ⟨hv, hws⟩ := List.forall_mem_cons.1 hf
  cases hrest with
  | cons hrest => rw [hrest.get?_kept hws hlast, hv.wrote u hu]

end Chained

/-! ### Runs -/

namespace Batch

theorem run_nil (b : Batch) (s : Memory) : (b.run Memory.store []).run s = (⟨[]⟩, s) := rfl

/-- A run is the turn of the first file, then the run of the others on the store it leaves. -/
theorem run_cons (b : Batch) (s : Memory) (path : Path) (paths : List Path) :
    (b.run Memory.store (path :: paths)).run s =
      (⟨b.entry s path :: ((b.run Memory.store paths).run (b.after s path)).1.results⟩,
        ((b.run Memory.store paths).run (b.after s path)).2) := by
  simp only [run, List.mapM_cons]
  rfl

/-- The visits of a run. -/
def visits (b : Batch) (s : Memory) : List Path → List Visit
  | [] => []
  | path :: paths => Visit.of b s path :: visits b (b.after s path) paths

theorem faithful_visits (b : Batch) (s : Memory) (paths : List Path) :
    ∀ v ∈ b.visits s paths, v.Faithful b := by
  induction paths generalizing s with
  | nil => simp [visits]
  | cons path paths ih =>
    rw [visits, List.forall_mem_cons]
    exact ⟨Visit.faithful_of b s path, ih _⟩

/-- A run goes through its visits. -/
theorem run_visits (b : Batch) (s : Memory) (paths : List Path) :
    (b.visits s paths).map Visit.path = paths ∧
      ((b.run Memory.store paths).run s).1.results = (b.visits s paths).map Visit.entry ∧
      Chained s (b.visits s paths) ((b.run Memory.store paths).run s).2 := by
  induction paths generalizing s with
  | nil => exact ⟨rfl, rfl, .nil s⟩
  | cons path paths ih =>
    obtain ⟨hpaths, hentries, hchained⟩ := ih (b.after s path)
    rw [run_cons, visits, List.map_cons, List.map_cons, hpaths, hentries]
    exact ⟨rfl, rfl, Chained.cons (v := Visit.of b s path) hchained⟩

/-- How visits account for a run of a batch from one store to another. -/
structure Accounts (b : Batch) (s : Memory) (paths : List Path) (report : Report) (s' : Memory)
    (visits : List Visit) : Prop where
  /-- One visit for each target, in order. -/
  paths : visits.map Visit.path = paths
  entries : report.results = visits.map Visit.entry
  chained : Chained s visits s'
  faithful : ∀ v ∈ visits, v.Faithful b
  log : s'.log = s.log ++ visits.flatMap fun v => b.calls v.found v.path
  /-- A key under which no write went through holds what it held, or nothing as before. -/
  kept : ∀ k, (∀ v ∈ visits, b.key v.path = k → b.written? v.found v.path = none) →
    s'.get? k = s.get? k
  /-- A key under which a write went through holds the text of the last one. -/
  last : ∀ vs v ws u, visits = vs ++ v :: ws → b.written? v.found v.path = some u →
    (∀ w ∈ ws, b.key w.path = b.key v.path → b.written? w.found w.path = none) →
    s'.get? (b.key v.path) = some u.text

/-- **A run reads and writes what its report says, and nothing else.** -/
theorem run_accounts (b : Batch) (s : Memory) (paths : List Path) :
    ∃ visits, Accounts b s paths ((b.run Memory.store paths).run s).1
      ((b.run Memory.store paths).run s).2 visits := by
  obtain ⟨hpaths, hentries, hchained⟩ := b.run_visits s paths
  have hf := b.faithful_visits s paths
  refine ⟨b.visits s paths, hpaths, hentries, hchained, hf, hchained.log_eq hf,
    fun k hk => hchained.get?_kept hf hk, ?_⟩
  intro vs v ws u hvs hu hlast
  rw [hvs] at hchained hf
  exact hchained.get?_last hf hu hlast

/-- Where the module has no pattern, a file with a spinner fails once it is read, and stays as it is. -/
example :
    let b : Batch := { settings := { refusals := fun _ => some "too long".toList } }
    let s : Memory := ⟨[("./a.tsx".toList, "<div className='animate-spin' />".toList),
      ("./b.tsx".toList, "text".toList)], [], []⟩
    let done := (b.run Memory.store [⟨"a.tsx".toList⟩, ⟨"b.tsx".toList⟩]).run s
    done.1.results.map FileResult.status =
        [.failed "General Error: Invalid import module '@/components/ui/Loading': too long".toList,
          .skipped] ∧
      done.2 = { s with log := [.read "./a.tsx".toList, .read "./b.tsx".toList] } := by decide +kernel

end Batch
end SpinnerMarkup
