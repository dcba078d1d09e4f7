import SpinnerMarkup.Store.Memory

/-! The turn of one file.

`Turn` says once which ways the turn of a file can go: the status it gives and the store it leaves.
`after_eq` gathers what it leaves into one equation. The status depends on the locks and on the text
under the file's own key only; the store afterwards is the store before, with the accesses recorded
and at most that one text replaced. Replacements under different keys do not notice each other
(`replaced_comm`). -/
namespace SpinnerMarkup

/-! ### Texts under keys -/

namespace Memory

/-- An entry of the store, with the new text if there is one and the key is the entry's. -/
def replaced (key : Text) (text? : Option Text) (f : Text × Text) : Text × Text :=
  match text? with
  | none => f
  | some text => if f.1 == key then (key, text) else f

theorem replaced_fst (key : Text) (text? : Option Text) (f : Text × Text) :
    (replaced key text? f).1 = f.1 := by
  unfold replaced
  split
  · rfl
  · split
    · next h => exact (beq_iff_eq.1 h).symm
    · rfl

theorem replaced_snd (key : Text) (text? : Option Text) (f : Text × Text) :
    (replaced key text? f).2 = if f.1 = key then text?.getD f.2 else f.2 := by
  cases text? with
  | none => simp [replaced]
  | some text => by_cases h : f.1 = key <;> simp [replaced, h]

/-- **Replacements under different keys can be made in either order.** -/
theorem replaced_comm {key key' : Text} (h : key ≠ key') (text? text?' : Option Text)
    (f : Text × Text) :
    replaced key' text?' (replaced key text? f) = replaced key text? (replaced key' text?' f) := by
  refine Prod.ext ?_ ?_
  · simp only [replaced_fst]
  · simp only [replaced_snd, replaced_fst]
    by_cases hk : f.1 = key
    · have hne : f.1 ≠ key' := fun hk' => h (hk.symm.trans hk')
      simp only [if_neg hne]
    · simp only [if_neg hk]

/-- What stands under a key after a replacement. -/
theorem lookup_map_replaced (files : List (Text × Text)) (key : Text) (text? : Option Text) (k : Text) :
    (files.map (replaced key text?)).lookup k =
      (files.lookup k).map fun old => if k = key then text?.getD old else old := by
  induction files with
  | nil => rfl
  | cons f files ih =>
    rw [List.map_cons, List.lookup_cons, List.lookup_cons, replaced_fst]
    by_cases hk : k = f.1
    · subst hk
      simp [replaced_snd]
    · have hne : (k == f.1) = false := by simpa using hk
      simp only [hne, ih]

/-- A text put under a key that holds one takes its place. -/
theorem put_of_get? {s : Memory} {key old : Text} (h : s.get? key = some old) (text : Text) :
    s.put key text = { s with files := s.files.map (replaced key (some text)) } := by
  have hany : s.files.any (·.1 == key) = true := by
    obtain ⟨l, r, hs, -⟩ := List.lookup_eq_some_iff.1 h
    simp [hs]
  rw [put, if_pos hany]
  rfl

/-! ### Accesses -/

/-- Two actions on a store, one after the other. -/
theorem run_bind_of_run {α β : Type} {x : StateM Memory α} {s s' : Memory} {a : α}
    (h : x.run s = (a, s')) (f : α → StateM Memory β) : (x >>= f).run s = (f a).run s' := by
  rw [StateT.run_bind, h]
  rfl

theorem read_run_none {s : Memory} {path : Path} (h : s.get? path.text = none) :
    (store.read path).run s = (.error missing, s.note (.read path.text)) := by
  simp only [store, read, StateT.run, h]

theorem read_run_some {s : Memory} {path : Path} {text : Text} (h : s.get? path.text = some text) :
    (store.read path).run s = (.ok text, s.note (.read path.text)) := by
  simp only [store, read, StateT.run, h]

theorem write_run_locked {s : Memory} {path : Path} (h : path.text ∈ s.locked) (text : Text) :
    (store.write path text).run s = (.error readOnly, s.note (.write path.text)) :=
  if_pos (List.elem_iff.2 h)

theorem write_run_unlocked {s : Memory} {path : Path} (h : path.text ∉ s.locked) (text : Text) :
    (store.write path text).run s = (.ok (), (s.note (.write path.text)).put path.text text) :=
  if_neg fun he => h (List.elem_iff.1 he)

end Memory

/-! ### The ways a turn can go -/

namespace Batch

/-- The key a target has in the store. -/
def key (b : Batch) (path : Path) : Text := (b.root.join path).text

/-- The ways the turn of a file can go, with the status it gives and the store it leaves. -/
inductive Turn (b : Batch) (path : Path) (s : Memory) : FileStatus → Memory → Prop where
  /-- Nothing stands under the key. -/
  | missing : s.get? (b.key path) = none →
      Turn b path s (.failed (Error.read (b.root.join path) Memory.missing).message)
        (s.note (.read (b.key path)))
  /-- The text cannot be updated: something in it is to be replaced, but the module has no pattern. -/
  | barred {source : Text} {error : Error} : s.get? (b.key path) = some source →
      b.settings.update source = .error error →
      Turn b path s (.failed error.message) (s.note (.read (b.key path)))
  /-- There is nothing to replace. -/
  | skipped {source : Text} : s.get? (b.key path) = some source →
      b.settings.update source = .ok none →
      Turn b path s .skipped (s.note (.read (b.key path)))
  /-- A dry run stops before the write. -/
  | foreseen {source : Text} {u : Update} : s.get? (b.key path) = some source →
      b.settings.update source = .ok (some u) → b.dryRun = true →
      Turn b path s (.changed u.replacements u.importAdded) (s.note (.read (b.key path)))
  /-- The key is locked. -/
  | refused {source : Text} {u : Update} : s.get? (b.key path) = some source →
      b.settings.update source = .ok (some u) → b.dryRun = false → b.key path ∈ s.locked →
      Turn b path s (.failed (Error.write (b.root.join path) Memory.readOnly).message)
        ((s.note (.read (b.key path))).note (.write (b.key path)))
  | written {source : Text} {u : Update} : s.get? (b.key path) = some source →
      b.settings.update source = .ok (some u) → b.dryRun = false → b.key path ∉ s.locked →
      Turn b path s (.changed u.replacements u.importAdded)
        (((s.note (.read (b.key path))).note (.write (b.key path))).put (b.key path) u.text)

section Turns
variable {b : Batch} {path : Path} {s s' : Memory} {status : FileStatus}

/-- A turn is what happens. -/
theorem Turn.updateStatus_run (h : Turn b path s status s') :
    (b.updateStatus Memory.store path).run s = (status, s') := by
  cases h with
  | missing hs =>
    rw [updateStatus, Memory.run_bind_of_run (Memory.read_run_none hs)]
    rfl
  | barred hs hu | skipped hs hu =>
    rw [updateStatus, Memory.run_bind_of_run (Memory.read_run_some hs)]
    simp only [hu]
    rfl
  | foreseen hs hu hd =>
    rw [updateStatus, Memory.run_bind_of_run (Memory.read_run_some hs)]
    simp only [hu, hd, if_true]
    rfl
  | refused hs hu hd hl =>
    rw [updateStatus, Memory.run_bind_of_run (Memory.read_run_some hs)]
    simp only [hu, hd, Bool.false_eq_true, if_false]
    have hl' : (b.root.join path).text ∈ (s.note (.read (b.key path))).locked := hl
    exact Memory.run_bind_of_run (Memory.write_run_locked hl' _) _
  | written hs hu hd hl =>
    rw [updateStatus, Memory.run_bind_of_run (Memory.read_run_some hs)]
    simp only [hu, hd, Bool.false_eq_true, if_false]
    have hl' : (b.root.join path).text ∉ (s.note (.read (b.key path))).locked := hl
    exact Memory.run_bind_of_run (Memory.write_run_unlocked hl' _) _

theorem exists_turn (b : Batch) (path : Path) (s : Memory) : ∃ status s', Turn b path s status s' := by
  cases hs : s.get? (b.key path) with
  | none => exact ⟨_, _, .missing hs⟩
  | some source =>
    cases hu : b.settings.update source with
    | error error => exact ⟨_, _, .barred hs hu⟩
    | ok u? =>
      cases u? with
      | none => exact ⟨_, _, .skipped hs hu⟩
      | some u =>
        cases hd : b.dryRun with
        | true => exact ⟨_, _, .foreseen hs hu hd⟩
        | false =>
          by_cases hl : b.key path ∈ s.locked
          · exact ⟨_, _, .refused hs hu hd hl⟩
          · exact ⟨_, _, .written hs hu hd hl⟩

/-! ### What a turn does -/

/-- The update of the text under a target's key. -/
def due? (b : Batch) (s : Memory) (path : Path) : Option Update :=
  (s.get? (b.key path)).bind b.settings.update?

theorem due?_of_missing (hs : s.get? (b.key path) = none) : b.due? s path = none := by
  rw [due?, hs, Option.bind_none]

theorem due?_of_error {source : Text} {error : Error} (hs : s.get? (b.key path) = some source)
    (hu : b.settings.update source = .error error) : b.due? s path = none := by
  rw [due?, hs, Option.bind_some, Settings.update?, hu]
  rfl

theorem due?_of_ok {source : Text} {u? : Option Update} (hs : s.get? (b.key path) = some source)
    (hu : b.settings.update source = .ok u?) : b.due? s path = u? := by
  rw [due?, hs, Option.bind_some, Settings.update?, hu]
  rfl

/-- The update a turn hands to the store: none in a dry run. -/
def sent? (b : Batch) (s : Memory) (path : Path) : Option Update :=
  if b.dryRun then none else b.due? s path

/-- The update the store takes: none under a lock. -/
def written? (b : Batch) (s : Memory) (path : Path) : Option Update :=
  if b.key path ∈ s.locked then none else b.sent? s path

/-- The accesses of a turn: a read, and a write if there is something to hand over. -/
def calls (b : Batch) (s : Memory) (path : Path) : List Access :=
  .read (b.key path) :: ((b.sent? s path).map fun _ => .write (b.key path)).toList

/-- The entry a file gets in its turn. -/
def entry (b : Batch) (s : Memory) (path : Path) : FileResult :=
  ((b.updateFile Memory.store path).run s).1

/-- The store after the turn of a file. -/
def after (b : Batch) (s : Memory) (path : Path) : Memory :=
  ((b.updateFile Memory.store path).run s).2

theorem Turn.updateFile_run (h : Turn b path s status s') :
    (b.updateFile Memory.store path).run s = (⟨path, status⟩, s') := by
  rw [updateFile, Memory.run_bind_of_run h.updateStatus_run]
  rfl

theorem Turn.entry_eq (h : Turn b path s status s') : b.entry s path = ⟨path, status⟩ := by
  rw [entry, h.updateFile_run]

theorem Turn.after_eq (h : Turn b path s status s') : b.after s path = s' := by
  rw [after, h.updateFile_run]

/-! ### What the status says -/

theorem Turn.changed_iff (h : Turn b path s status s') (n : Nat) (added : Bool) :
    status = .changed n added ↔ ∃ u, b.due? s path = some u ∧
      (b.dryRun = true ∨ b.written? s path = some u) ∧ u.replacements = n ∧ u.importAdded = added := by
  cases h with
  | missing hs => simp [due?_of_missing hs]
  | barred hs hu => simp [due?_of_error hs hu]
  | skipped hs hu => simp [due?_of_ok hs hu]
  | foreseen hs hu hd => simp [due?_of_ok hs hu, hd]
  | refused hs hu hd hl => simp [written?, due?_of_ok hs hu, hd, hl]
  | written hs hu hd hl => simp [written?, sent?, due?_of_ok hs hu, hd, hl]

theorem Turn.skipped_iff (h : Turn b path s status s') :
    status = .skipped ↔
      ∃ source, s.get? (b.key path) = some source ∧ b.settings.update source = .ok none := by
  cases h with
  | missing hs => simp [hs]
  | barred hs hu | skipped hs hu => simp [hs, hu]
  | foreseen hs hu hd => simp [hs, hu]
  | refused hs hu hd hl => simp [hs, hu]
  | written hs hu hd hl => simp [hs, hu]

theorem Turn.failed_iff (h : Turn b path s status s') (error : Text) :
    status = .failed error ↔
      (s.get? (b.key path) = none ∧
          (Error.read (b.root.join path) Memory.missing).message = error) ∨
        (∃ source, s.get? (b.key path) = some source ∧
          ∃ cause, b.settings.update source = .error cause ∧ cause.message = error) ∨
        (b.sent? s path ≠ none ∧ b.written? s path = none ∧
          (Error.write (b.root.join path) Memory.readOnly).message = error) := by
  cases h with
  | missing hs => simp [sent?, due?_of_missing hs, hs]
  | barred hs hu => simp [sent?, due?_of_error hs hu, hs, hu]
  | skipped hs hu => simp [sent?, due?_of_ok hs hu, hs, hu]
  | foreseen hs hu hd => simp [sent?, hs, hu, hd]
  | refused hs hu hd hl => simp [written?, sent?, due?_of_ok hs hu, hs, hu, hd, hl]
  | written hs hu hd hl => simp [written?, sent?, due?_of_ok hs hu, hs, hu, hd, hl]

end Turns

/-! ### The store after a turn -/

/-- **After a turn the store is as before, but for the recorded accesses and the one text the turn
wrote.** -/
theorem after_eq (b : Batch) (s : Memory) (path : Path) :
    b.after s path =
      ⟨s.files.map (Memory.replaced (b.key path) ((b.written? s path).map Update.text)), s.locked,
        s.log ++ b.calls s path⟩ := by
  have hsame : s.files.map (Memory.replaced (b.key path) none) = s.files := List.map_id _
  obtain ⟨status, s', h⟩ := b.exists_turn path s
  rw [h.after_eq]
  cases h with
  | missing hs => simp [Memory.note, calls, written?, sent?, due?_of_missing hs, hsame]
  | barred hs hu => simp [Memory.note, calls, written?, sent?, due?_of_error hs hu, hsame]
  | skipped hs hu => simp [Memory.note, calls, written?, sent?, due?_of_ok hs hu, hsame]
  | foreseen hs hu hd => simp [Memory.note, calls, written?, sent?, hd, hsame]
  | refused hs hu hd hl => simp [Memory.note, calls, written?, sent?, due?_of_ok hs hu, hd, hl, hsame]
  | written hs hu hd hl =>
    rw [Memory.put_of_get? (by exact hs)]
    simp [Memory.note, calls, written?, sent?, due?_of_ok hs hu, hd, hl]

/-- What stands under a key after a turn. -/
theorem get?_after (b : Batch) (s : Memory) (path : Path) (k : Text) :
    (b.after s path).get? k =
      (s.get? k).map fun old =>
        if k = b.key path then ((b.written? s path).map Update.text).getD old else old := by
  rw [after_eq]
  exact Memory.lookup_map_replaced s.files _ _ k

/-- What is written takes the place of a text that was there. -/
theorem get?_after_of_written {b : Batch} {s : Memory} {path : Path} {u : Update}
    (h : b.written? s path = some u) : (b.after s path).get? (b.key path) = some u.text := by
  have hsome : (s.get? (b.key path)).isSome = true := by
    cases hs : s.get? (b.key path) with
    | none => simp [written?, sent?, due?_of_missing hs] at h
    | some source => rfl
  obtain ⟨source, hs⟩ := Option.isSome_iff_exists.1 hsome
  simp [get?_after, hs, h]

/-- A turn leaves alone what it does not write. -/
theorem get?_after_of_not_written {b : Batch} {s : Memory} {path : Path} {k : Text}
    (h : b.key path = k → b.written? s path = none) : (b.after s path).get? k = s.get? k := by
  rw [get?_after]
  by_cases hk : k = b.key path
  · simp [h hk.symm]
  · simp [hk]

theorem locked_after (b : Batch) (s : Memory) (path : Path) : (b.after s path).locked = s.locked := by
  rw [after_eq]

/-- The entry depends on the locks and on the text under the file's own key. -/
theorem entry_congr {b : Batch} {s s' : Memory} {path : Path}
    (hget : s'.get? (b.key path) = s.get? (b.key path)) (hlocked : s'.locked = s.locked) :
    b.entry s' path = b.entry s path := by
  obtain ⟨status, s₁, h⟩ := b.exists_turn path s
  have hturn : ∃ s₁', Turn b path s' status s₁' := by
    cases h with
    | missing hs => exact ⟨_, .missing (hget.trans hs)⟩
    | barred hs hu => exact ⟨_, .barred (hget.trans hs) hu⟩
    | skipped hs hu => exact ⟨_, .skipped (hget.trans hs) hu⟩
    | foreseen hs hu hd => exact ⟨_, .foreseen (hget.trans hs) hu hd⟩
    | refused hs hu hd hl => exact ⟨_, .refused (hget.trans hs) hu hd (hlocked ▸ hl)⟩
    | written hs hu hd hl => exact ⟨_, .written (hget.trans hs) hu hd (hlocked ▸ hl)⟩
  obtain ⟨s₁', h'⟩ := hturn
  rw [h.entry_eq, h'.entry_eq]

end Batch
end SpinnerMarkup
