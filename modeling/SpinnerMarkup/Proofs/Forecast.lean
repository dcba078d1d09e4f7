import SpinnerMarkup.Proofs.Independence

/-! A dry run foretells the real run.

Both runs begin with the same store and then drift apart: the real run changes it file by file, the
dry run never does (`run_dry`). What holds them together is that no target lies under the key of an
earlier one, so a file that has not had its turn holds the same text in both stores (`Abreast`). A dry
turn and a real turn that find the same text give the same entry, also where the text cannot be updated,
unless the write of the real turn fails (`foretells_of_get?_eq`); and both leave the stores abreast for the
files to come. -/
namespace SpinnerMarkup

/-- What the store answers to the write of a visit, which follows its read; none for a visit that
writes nothing. -/
def Visit.reply? (b : Batch) (v : Visit) : Option (Except Fault Unit) :=
  (b.sent? v.found v.path).map fun u =>
    ((Memory.store.write (b.root.join v.path) u.text).run (v.found.note (.read (b.key v.path)))).1

namespace Batch

/-- A batch that only works out its results. -/
def dry (b : Batch) : Batch := { b with dryRun := true }

/-- A batch that writes its results. -/
def real (b : Batch) : Batch := { b with dryRun := false }

/-! ### The dry run -/

/-- A dry turn is a read. -/
theorem after_dry (b : Batch) (s : Memory) (path : Path) :
    b.dry.after s path = s.note (.read (b.key path)) := by
  have hnone : b.dry.written? s path = none := by simp [written?, sent?, dry]
  have hcalls : b.dry.calls s path = [.read (b.key path)] := rfl
  have hsame : s.files.map (Memory.replaced (b.dry.key path) none) = s.files := List.map_id _
  rw [after_eq, hnone, hcalls, Option.map_none, hsame]
  rfl

/-- **A dry run reads every target once and does nothing else.** -/
theorem run_dry (b : Batch) (s : Memory) (paths : List Path) :
    ((b.dry.run Memory.store paths).run s).2 =
      { s with log := s.log ++ paths.map fun path => .read (b.key path) } := by
  induction paths generalizing s with
  | nil => simp [run_nil]
  | cons path paths ih =>
    rw [run_cons, ih, after_dry]
    simp [Memory.note]

/-! ### One turn of each run -/

/-- How an entry of the dry run foretells the visit of the same file in the real run. -/
structure Foretells (b : Batch) (d : FileResult) (v : Visit) : Prop where
  path : d.path = v.path
  /-- Where nothing would change, nothing can go otherwise. -/
  settled : d.changed = false → v.entry = d
  /-- A change that was foretold is written; -/
  sent : d.changed = true → ∃ reply, v.reply? b = some reply
  /-- it fails exactly when its write fails, -/
  failed_iff : d.changed = true →
    ((∃ error, v.entry.status = .failed error) ↔ ∃ cause, v.reply? b = some (.error cause))
  /-- and then for the reason the store gives; -/
  cause : ∀ cause, v.reply? b = some (.error cause) →
    v.entry = ⟨d.path, .failed (Error.write (b.root.join d.path) cause).message⟩
  /-- otherwise it is made as foretold. -/
  made : d.changed = true → (∀ cause, v.reply? b ≠ some (.error cause)) → v.entry = d

section Turns
variable {b : Batch} {path : Path} {t t' : Memory} {d : FileResult} {v : Visit}

/-- A turn without a write goes as foretold. -/
theorem Foretells.of_silent (hpath : d.path = v.path) (hd : d.changed = false) (hentry : v.entry = d)
    (hreply : v.reply? b = none) : Foretells b d v := by
  have hnot : d.changed ≠ true := by
    rw [hd]
    exact Bool.false_ne_true
  refine ⟨hpath, fun _ => hentry, fun h => absurd h hnot, fun h => absurd h hnot, ?_,
    fun _ _ => hentry⟩
  intro cause hcause
  rw [hreply] at hcause
  cases hcause

/-- A change goes as foretold if its write succeeds. -/
theorem Foretells.of_made (hpath : d.path = v.path) (hd : d.changed = true) (hentry : v.entry = d)
    (hreply : v.reply? b = some (.ok ())) : Foretells b d v := by
  have hnot : ∀ cause, v.reply? b ≠ some (.error cause) := by
    intro cause hcause
    rw [hreply] at hcause
    cases hcause
  refine ⟨hpath, fun _ => hentry, fun _ => ⟨_, hreply⟩, fun _ => iff_of_false ?_ ?_,
    fun cause hcause => absurd hcause (hnot cause), fun _ _ => hentry⟩
  · intro hfailed
    obtain ⟨error, herror⟩ := hfailed
    rw [hentry] at herror
    rw [FileResult.changed, herror] at hd
    cases hd
  · intro hrefused
    obtain ⟨cause, hcause⟩ := hrefused
    exact hnot cause hcause

/-- A change fails if its write does. -/
theorem Foretells.of_refused {cause : Fault} (hpath : d.path = v.path) (hd : d.changed = true)
    (hentry : v.entry = ⟨d.path, .failed (Error.write (b.root.join d.path) cause).message⟩)
    (hreply : v.reply? b = some (.error cause)) : Foretells b d v := by
  refine ⟨hpath, fun hunchanged => ?_, fun _ => ⟨_, hreply⟩, fun _ => iff_of_true ?_ ⟨_, hreply⟩,
    fun cause' hcause' => ?_, fun _ hnot => absurd hreply (hnot cause)⟩
  · rw [hd] at hunchanged
    cases hunchanged
  · exact ⟨_, congrArg FileResult.status hentry⟩
  · obtain rfl : cause = cause' := by simpa [hreply] using hcause'
    exact hentry

/-- The store takes the write of a real turn, or refuses it because of a lock. -/
theorem reply?_of_due? {u : Update} (h : b.due? t path = some u) :
    (Visit.of b.real t path).reply? b.real =
      some (if b.key path ∈ t.locked then .error Memory.readOnly else .ok ()) := by
  have hsent : b.real.sent? t path = some u := h
  by_cases hl : b.key path ∈ t.locked
  · have hwrite := @Memory.write_run_locked (t.note (.read (b.key path))) (b.root.join path) hl u.text
    simp only [Visit.reply?, Visit.of, hsent, if_pos hl, Option.map_some]
    exact congrArg (fun w => some w.1) hwrite
  · have hwrite := @Memory.write_run_unlocked (t.note (.read (b.key path))) (b.root.join path) hl u.text
    simp only [Visit.reply?, Visit.of, hsent, if_neg hl, Option.map_some]
    exact congrArg (fun w => some w.1) hwrite

theorem reply?_of_not_due (h : b.due? t path = none) :
    (Visit.of b.real t path).reply? b.real = none := by
  have hsent : b.real.sent? t path = none := h
  simp [Visit.reply?, Visit.of, hsent]

/-- **A dry turn foretells the real turn of the same file, if both find the same text.** -/
theorem foretells_of_get?_eq (hget : t'.get? (b.key path) = t.get? (b.key path)) :
    Foretells b.real (b.dry.entry t path) (Visit.of b.real t' path) := by
  obtain ⟨status, s, h⟩ := b.dry.exists_turn path t
  rw [h.entry_eq]
  cases h with
  | missing hs =>
    have hs' : t'.get? (b.key path) = none := hget.trans hs
    have hreal : Turn b.real path t' _ _ := .missing hs'
    exact .of_silent rfl rfl hreal.entry_eq (reply?_of_not_due (due?_of_missing hs'))
  | @barred source error hs hu =>
    have hs' : t'.get? (b.key path) = some source := hget.trans hs
    have hreal : Turn b.real path t' _ _ := .barred hs' hu
    exact .of_silent rfl rfl hreal.entry_eq (reply?_of_not_due (due?_of_error hs' hu))
  | @skipped source hs hu =>
    have hs' : t'.get? (b.key path) = some source := hget.trans hs
    have hreal : Turn b.real path t' _ _ := .skipped hs' hu
    exact .of_silent rfl rfl hreal.entry_eq (reply?_of_not_due (due?_of_ok hs' hu))
  | @foreseen source u hs hu _ =>
    have hs' : t'.get? (b.key path) = some source := hget.trans hs
    have hdue : b.due? t' path = some u := due?_of_ok hs' hu
    have hreply := reply?_of_due? hdue
    -- the dry turn stops here; how the real one goes on is up to the lock
    by_cases hl : b.key path ∈ t'.locked
    · have hreal : Turn b.real path t' _ _ := .refused hs' hu rfl hl
      rw [if_pos hl] at hreply
      exact .of_refused rfl rfl hreal.entry_eq hreply
    · have hreal : Turn b.real path t' _ _ := .written hs' hu rfl hl
      rw [if_neg hl] at hreply
      exact .of_made rfl rfl hreal.entry_eq hreply
  | refused _ _ hd _ => cases hd
  | written _ _ hd _ => cases hd

end Turns

/-! ### The two runs side by side -/

/-- The stores of the two runs hold the same text for every file that is yet to come. -/
def Abreast (b : Batch) (t t' : Memory) (paths : List Path) : Prop :=
  ∀ path ∈ paths, t'.get? (b.key path) = t.get? (b.key path)

/-- A turn of each run keeps the stores abreast for files under other keys. -/
theorem abreast_step {b : Batch} {t t' : Memory} {path : Path} {paths : List Path}
    (h : Abreast b t t' (path :: paths)) (hnot : b.key path ∉ paths.map b.key) :
    Abreast b (b.dry.after t path) (b.real.after t' path) paths := by
  intro p hp
  have hkey : b.key path ≠ b.key p := by
    intro heq
    exact hnot (heq ▸ List.mem_map_of_mem hp)
  have hreal : (b.real.after t' path).get? (b.key p) = t'.get? (b.key p) :=
    get?_after_of_not_written fun heq => absurd heq hkey
  rw [hreal, after_dry]
  exact h p (List.mem_cons_of_mem path hp)

/-- The dry run foretells the real run, from any two stores that are abreast. -/
theorem run_foretells {b : Batch} {t t' : Memory} {paths : List Path}
    (hkeys : (paths.map b.key).Nodup) (h : Abreast b t t' paths) :
    List.Forall₂ (Foretells b.real) ((b.dry.run Memory.store paths).run t).1.results
      (b.real.visits t' paths) := by
  induction paths generalizing t t' with
  | nil => exact .nil
  | cons path paths ih =>
    obtain ⟨hnot, hnodup⟩ := List.nodup_cons.1 hkeys
    rw [run_cons, visits]
    exact .cons (foretells_of_get?_eq (h path (List.mem_cons_self ..)))
      (ih hnodup (abreast_step h hnot))

/-- What a dry run says about the real run from the same store. -/
structure Forecast (b : Batch) (s : Memory) (paths : List Path) : Prop where
  /-- The dry run writes nothing: all it leaves behind is the record of its reads. -/
  store : ((b.dry.run Memory.store paths).run s).2 =
    { s with log := s.log ++ paths.map fun path => .read (b.key path) }
  /-- The real run goes through its visits, one for each target in order. -/
  targets : (b.real.visits s paths).map Visit.path = paths
  chained : Chained s (b.real.visits s paths) ((b.real.run Memory.store paths).run s).2
  entries : ((b.real.run Memory.store paths).run s).1.results =
    (b.real.visits s paths).map Visit.entry
  /-- Entry by entry, the dry run foretells the visits. -/
  foretold : List.Forall₂ (Foretells b.real) ((b.dry.run Memory.store paths).run s).1.results
    (b.real.visits s paths)

/-- **A dry run foretells the real run of targets with different keys.** -/
theorem run_forecast (b : Batch) (s : Memory) (paths : List Path)
    (hkeys : (paths.map b.key).Nodup) : Forecast b s paths := by
  obtain ⟨hpaths, hentries, hchained⟩ := b.real.run_visits s paths
  have habreast : Abreast b s s paths := fun _ _ => rfl
  exact ⟨b.run_dry s paths, hpaths, hchained, hentries, run_foretells hkeys habreast⟩

/-- Four targets of which the dry run foretells two changes, one that is made and one that a lock
prevents. -/
theorem fourTargets_forecast :
    (fourTargets.map (Batch.key {})).Nodup ∧ Forecast {} threeFiles fourTargets ∧
      (((dry {}).run Memory.store fourTargets).run threeFiles).1.changedCount = 2 ∧
      (((real {}).run Memory.store fourTargets).run threeFiles).1.changedCount = 1 := by
  have hkeys : (fourTargets.map (Batch.key {})).Nodup := by decide +kernel
  exact ⟨hkeys, run_forecast {} threeFiles fourTargets hkeys, by decide +kernel, by decide +kernel⟩

end Batch
end SpinnerMarkup
