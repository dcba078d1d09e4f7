import Mathlib.Data.List.Nodup
import Mathlib.Data.List.Perm.Basic
import SpinnerMarkup.Proofs.BatchRun

/-! Files are independent.

The turn of a file looks at the locks and at the text under its own key, and it changes nothing else.
So when the targets of a batch have different keys, every file gets the entry, the accesses and the
text that it gets alone on the store the run begins with (`run_alone`), and the order of the targets
does not matter (`run_perm`). -/
namespace SpinnerMarkup.Batch

/-! ### A turn on a store that another turn has left -/

section Turns
variable {b : Batch} {s s' : Memory} {path : Path}

theorem sent?_congr (hget : s'.get? (b.key path) = s.get? (b.key path)) :
    b.sent? s' path = b.sent? s path := by
  rw [sent?, sent?, due?, due?, hget]

theorem written?_congr (hget : s'.get? (b.key path) = s.get? (b.key path))
    (hlocked : s'.locked = s.locked) : b.written? s' path = b.written? s path := by
  rw [written?, written?, hlocked, sent?_congr hget]

theorem calls_congr (hget : s'.get? (b.key path) = s.get? (b.key path)) :
    b.calls s' path = b.calls s path := by
  rw [calls, calls, sent?_congr hget]

end Turns

/-- An entry of the store after the turns of some targets, each worked out on the store `s`. -/
def revised (b : Batch) (s : Memory) (paths : List Path) (f : Text × Text) : Text × Text :=
  paths.foldl (fun f p => Memory.replaced (b.key p) ((b.written? s p).map Update.text) f) f

theorem revised_nil (b : Batch) (s : Memory) : b.revised s [] = id := rfl

theorem revised_cons (b : Batch) (s : Memory) (path : Path) (paths : List Path) :
    b.revised s (path :: paths) =
      b.revised s paths ∘ Memory.replaced (b.key path) ((b.written? s path).map Update.text) := rfl

/-- **Every file of a run fares as it fares alone.** -/
theorem run_alone (b : Batch) (s : Memory) (paths : List Path) (h : (paths.map b.key).Nodup) :
    (b.run Memory.store paths).run s =
      (⟨paths.map (b.entry s)⟩,
        ⟨s.files.map (b.revised s paths), s.locked, s.log ++ paths.flatMap (b.calls s)⟩) := by
  induction paths generalizing s with
  | nil => simp [run_nil, revised_nil]
  | cons path paths ih =>
    obtain ⟨hnot, hnodup⟩ := List.nodup_cons.1 h
    have hget : ∀ p ∈ paths, (b.after s path).get? (b.key p) = s.get? (b.key p) := by
      intro p hp
      apply get?_after_of_not_written
      intro he
      exact absurd (he ▸ List.mem_map_of_mem hp) hnot
    have hlocked := b.locked_after s path
    have hentry : paths.map (b.entry (b.after s path)) = paths.map (b.entry s) :=
      List.map_congr_left fun p hp => entry_congr (hget p hp) hlocked
    have hcalls : paths.flatMap (b.calls (b.after s path)) = paths.flatMap (b.calls s) :=
      List.flatMap_congr fun p hp => calls_congr (hget p hp)
    have hrevised : b.revised (b.after s path) paths = b.revised s paths := by
      funext f
      apply List.foldl_ext
      intro f p hp
      rw [written?_congr (hget p hp) hlocked]
    rw [run_cons, ih (b.after s path) hnodup, hentry, hcalls, hrevised]
    simp [after_eq, revised_cons]

/-! ### Any order -/

/-- The turns of targets with different keys can be taken in any order. -/
theorem revised_perm {b : Batch} {s : Memory} {paths paths' : List Path}
    (h : (paths'.map b.key).Nodup) (hperm : paths'.Perm paths) (f : Text × Text) :
    b.revised s paths' f = b.revised s paths f := by
  apply hperm.foldl_eq'
  intro p hp q hq f
  by_cases hpq : p = q
  · rw [hpq]
  · have hkey : b.key p ≠ b.key q := fun he => hpq (List.inj_on_of_nodup_map h hp hq he)
    exact Memory.replaced_comm hkey _ _ f

theorem clearLog_run_perm {b : Batch} {s : Memory} {paths paths' : List Path}
    (h : (paths.map b.key).Nodup) (hperm : paths'.Perm paths) :
    ((b.run Memory.store paths').run s).2.clearLog =
      ((b.run Memory.store paths).run s).2.clearLog := by
  have h' : (paths'.map b.key).Nodup := (hperm.map b.key).nodup_iff.2 h
  have hfiles : s.files.map (b.revised s paths') = s.files.map (b.revised s paths) :=
    List.map_congr_left fun f _ => revised_perm h' hperm f
  rw [b.run_alone s paths h, b.run_alone s paths' h', hfiles]
  rfl

/-- A run leaves alone what is no target of it. -/
theorem get?_run_of_not_mem {b : Batch} {s : Memory} {paths : List Path} {k : Text}
    (h : k ∉ paths.map b.key) : ((b.run Memory.store paths).run s).2.get? k = s.get? k := by
  obtain ⟨hpaths, -, hchained⟩ := b.run_visits s paths
  refine hchained.get?_kept (b.faithful_visits s paths) fun v hv hk => absurd ?_ h
  have hmem : v.path ∈ (b.visits s paths).map Visit.path := List.mem_map_of_mem hv
  rw [hpaths] at hmem
  exact hk ▸ List.mem_map_of_mem hmem

/-- What stands under a target's key after a run is what the target's turn alone leaves there. -/
theorem get?_run {b : Batch} {s : Memory} {paths : List Path} (h : (paths.map b.key).Nodup)
    {path : Path} (hpath : path ∈ paths) :
    ((b.run Memory.store paths).run s).2.get? (b.key path) =
      (b.after s path).get? (b.key path) := by
  -- the order does not matter, so the target may as well be the first
  obtain ⟨l, r, rfl⟩ := List.append_of_mem hpath
  have hperm : (l ++ path :: r).Perm (path :: (l ++ r)) := List.perm_middle
  have hfirst : ((path :: (l ++ r)).map b.key).Nodup := (hperm.map b.key).nodup_iff.1 h
  have hnot : b.key path ∉ (l ++ r).map b.key := (List.nodup_cons.1 hfirst).1
  calc ((b.run Memory.store (l ++ path :: r)).run s).2.get? (b.key path)
      = ((b.run Memory.store (path :: (l ++ r))).run s).2.get? (b.key path) :=
        congrArg (·.get? (b.key path)) (clearLog_run_perm (s := s) hfirst hperm)
    _ = ((b.run Memory.store (l ++ r)).run (b.after s path)).2.get? (b.key path) := by rw [run_cons]
    _ = (b.after s path).get? (b.key path) := get?_run_of_not_mem hnot

/-- What the order of the targets has to say in a run: nothing. -/
structure OrderIndependent (b : Batch) (s : Memory) (paths paths' : List Path) : Prop where
  /-- The runs end in the same store; the record of accesses apart, which is kept in order. -/
  store : ((b.run Memory.store paths').run s).2.clearLog =
    ((b.run Memory.store paths).run s).2.clearLog
  log : ((b.run Memory.store paths').run s).2.log.Perm ((b.run Memory.store paths).run s).2.log
  /-- Every target gets the entry it gets alone on the store at the beginning. -/
  entries : ((b.run Memory.store paths).run s).1.results = paths.map (b.entry s)
  entries' : ((b.run Memory.store paths').run s).1.results = paths'.map (b.entry s)
  /-- And under its key stands what its turn alone leaves there. -/
  texts : ∀ path ∈ paths, ((b.run Memory.store paths).run s).2.get? (b.key path) =
    (b.after s path).get? (b.key path)

/-- **Targets with different keys can be taken in any order.** -/
theorem run_perm (b : Batch) (s : Memory) (paths paths' : List Path)
    (hkeys : (paths.map b.key).Nodup) (hperm : paths'.Perm paths) :
    OrderIndependent b s paths paths' := by
  have hrun := b.run_alone s paths hkeys
  have hrun' := b.run_alone s paths' ((hperm.map b.key).nodup_iff.2 hkeys)
  refine ⟨clearLog_run_perm hkeys hperm, ?_, by rw [hrun], by rw [hrun'],
    fun path hpath => get?_run hkeys hpath⟩
  rw [hrun, hrun']
  exact (hperm.flatMap_right (b.calls s)).append_left s.log

/-- Two files with a spinner, one of them locked, and one without. -/
def threeFiles : Memory where
  files := [("./a.tsx".toList, "<div className='animate-spin' />".toList),
    ("./b.tsx".toList, "<div className='animate-spin' />".toList), ("./c.tsx".toList, "text".toList)]
  locked := ["./b.tsx".toList]
  log := []

/-- Its files and one that is missing. -/
def fourTargets : List Path :=
  [⟨"a.tsx".toList⟩, ⟨"b.tsx".toList⟩, ⟨"c.tsx".toList⟩, ⟨"d.tsx".toList⟩]

theorem fourTargets_reversed :
    (fourTargets.map (Batch.key {})).Nodup ∧ fourTargets.reverse.Perm fourTargets ∧
      OrderIndependent {} threeFiles fourTargets fourTargets.reverse := by
  have hkeys : (fourTargets.map (Batch.key {})).Nodup := by decide +kernel
  have hperm : fourTargets.reverse.Perm fourTargets := List.reverse_perm fourTargets
  exact ⟨hkeys, hperm, run_perm {} threeFiles fourTargets fourTargets.reverse hkeys hperm⟩

end SpinnerMarkup.Batch
