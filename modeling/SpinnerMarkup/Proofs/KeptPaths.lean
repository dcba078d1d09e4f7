import SpinnerMarkup.Proofs.PathSpelling
import SpinnerMarkup.Proofs.TargetPaths

/-! Which paths are kept.

Dropping repetitions takes one path after another and keeps it unless it is the same as a kept one
(`dedup_snoc`). What is kept after each step can be told from the places it was taken from
(`KeepsFirsts`): a path that is a spelling of a kept one adds nothing (`KeepsFirsts.skip`), any other adds
its own place (`KeepsFirsts.keep`). So in the end there is exactly one kept path for all spellings of a
path, namely the one that was given first, and dropping repetitions once more changes nothing
(`dedup_keeps_firsts`). -/
namespace SpinnerMarkup.Path

/-! ### Spellings -/

theorem Respelled.refl (p : Path) : Respelled p p := parts_eq_iff_respelled.1 rfl

theorem Respelled.symm {p q : Path} (h : Respelled p q) : Respelled q p :=
  parts_eq_iff_respelled.1 (parts_eq_iff_respelled.2 h).symm

theorem Respelled.trans {p q r : Path} (hpq : Respelled p q) (hqr : Respelled q r) : Respelled p r :=
  parts_eq_iff_respelled.1 ((parts_eq_iff_respelled.2 hpq).trans (parts_eq_iff_respelled.2 hqr))

theorem any_same_iff_respelled {kept : List Path} {p : Path} :
    kept.any (same p) = true ↔ ∃ q ∈ kept, Respelled p q := by
  simp only [List.any_eq_true, same_iff, parts_eq_iff_respelled]

/-! ### One path more -/

theorem dedup_snoc (paths : List Path) (p : Path) :
    dedup (paths ++ [p]) = if (dedup paths).any (same p) then dedup paths else dedup paths ++ [p] := by
  rw [dedup, List.foldl_append]
  rfl

/-- Some of the paths, the places they were taken from, and what makes them the right ones. -/
structure KeepsFirsts (paths kept : List Path) (places : List Nat) : Prop where
  /-- What is kept stands at the places, as it was written. -/
  texts : kept.map some = places.map fun i => paths[i]?
  /-- It is kept in its order. -/
  order : places.Pairwise (· < ·)
  /-- It stands before every other spelling of it. -/
  earliest : ∀ i ∈ places, ∀ j p q, paths[i]? = some p → paths[j]? = some q → Respelled p q → i ≤ j
  /-- Every path is a spelling of something kept. -/
  covers : ∀ p ∈ paths, ∃ q ∈ kept, Respelled p q

variable {paths kept : List Path} {places : List Nat}

theorem KeepsFirsts.lt (h : KeepsFirsts paths kept places) {i : Nat} (hi : i ∈ places) : i < paths.length := by
  have hmem : paths[i]? ∈ places.map fun i => paths[i]? := List.mem_map_of_mem hi
  rw [← h.texts, List.mem_map] at hmem
  obtain ⟨p, -, hp⟩ := hmem
  exact (List.getElem?_eq_some_iff.1 hp.symm).1

theorem KeepsFirsts.getElem?_snoc (h : KeepsFirsts paths kept places) (p : Path) {i : Nat} (hi : i ∈ places) :
    (paths ++ [p])[i]? = paths[i]? :=
  List.getElem?_append_left (h.lt hi)

theorem KeepsFirsts.earliest_snoc (h : KeepsFirsts paths kept places) (p : Path) :
    ∀ i ∈ places, ∀ j q r, (paths ++ [p])[i]? = some q → (paths ++ [p])[j]? = some r → Respelled q r → i ≤ j := by
  intro i hi j q r hq hr hqr
  rw [h.getElem?_snoc p hi] at hq
  by_cases hj : j < paths.length
  · rw [List.getElem?_append_left hj] at hr
    exact h.earliest i hi j q r hq hr hqr
  · have hlt := h.lt hi
    omega

/-- A spelling of a kept path adds nothing. -/
theorem KeepsFirsts.skip (h : KeepsFirsts paths kept places) {p : Path} (hp : ∃ q ∈ kept, Respelled p q) :
    KeepsFirsts (paths ++ [p]) kept places where
  texts := by
    rw [h.texts]
    exact List.map_congr_left fun i hi => (h.getElem?_snoc p hi).symm
  order := h.order
  earliest := h.earliest_snoc p
  covers := by
    intro q hq
    rcases List.mem_append.1 hq with hq | hq
    · exact h.covers q hq
    · exact List.mem_singleton.1 hq ▸ hp

/-- Any other path is kept, and its place is the last. -/
theorem KeepsFirsts.keep (h : KeepsFirsts paths kept places) {p : Path} (hp : ¬ ∃ q ∈ kept, Respelled p q) :
    KeepsFirsts (paths ++ [p]) (kept ++ [p]) (places ++ [paths.length]) where
  texts := by
    have hold : (places.map fun i => (paths ++ [p])[i]?) = places.map fun i => paths[i]? :=
      List.map_congr_left fun i hi => h.getElem?_snoc p hi
    simp [h.texts, hold]
  order := by
    refine List.pairwise_append.2 ⟨h.order, List.pairwise_singleton _ _, fun i hi j hj => ?_⟩
    rw [List.mem_singleton.1 hj]
    exact h.lt hi
  earliest := by
    intro i hi j q r hq hr hqr
    rcases List.mem_append.1 hi with hi | hi
    · exact h.earliest_snoc p i hi j q r hq hr hqr
    obtain rfl := List.mem_singleton.1 hi
    obtain rfl : p = q := by simpa using hq
    by_contra hlt
    -- a spelling of `p` among the earlier paths would be one of a kept path
    rw [List.getElem?_append_left (by omega)] at hr
    obtain ⟨s, hs, hrs⟩ := h.covers r (List.mem_of_getElem? hr)
    exact hp ⟨s, hs, hqr.trans hrs⟩
  covers := by
    intro q hq
    rcases List.mem_append.1 hq with hq | hq
    · obtain ⟨r, hr, hqr⟩ := h.covers q hq
      exact ⟨r, List.mem_append_left [p] hr, hqr⟩
    · exact ⟨p, List.mem_append_right kept (List.mem_singleton.2 rfl), List.mem_singleton.1 hq ▸ .refl p⟩

/-! ### All paths -/

theorem exists_keepsFirsts_dedup (paths : List Path) : ∃ places, KeepsFirsts paths (dedup paths) places := by
  induction paths using List.reverseRecOn with
  | nil => exact ⟨[], ⟨rfl, List.Pairwise.nil, fun _ hi => absurd hi List.not_mem_nil, fun _ hp =>
      absurd hp List.not_mem_nil⟩⟩
  | append_singleton paths p ih =>
    obtain ⟨places, h⟩ := ih
    rw [dedup_snoc]
    split
    · next hany => exact ⟨places, h.skip (any_same_iff_respelled.1 hany)⟩
    · next hany => exact ⟨places ++ [paths.length], h.keep fun hp => hany (any_same_iff_respelled.2 hp)⟩

/-- Nothing is dropped where no two paths are the same. -/
theorem dedup_eq_self (h : paths.Pairwise fun p q => ¬ Respelled p q) : dedup paths = paths := by
  induction paths using List.reverseRecOn with
  | nil => rfl
  | append_singleton paths p ih =>
    obtain ⟨hpaths, -, hlast⟩ := List.pairwise_append.1 h
    have hnew : ¬ paths.any (same p) = true := fun hany => by
      obtain ⟨q, hq, hpq⟩ := any_same_iff_respelled.1 hany
      exact hlast q hq p (List.mem_singleton.2 rfl) hpq.symm
    rw [dedup_snoc, ih hpaths, if_neg hnew]

theorem pairwise_dedup (paths : List Path) : (dedup paths).Pairwise fun p q => ¬ Respelled p q :=
  (List.pairwise_map.1 (nodup_parts_dedup paths)).imp fun hne h => hne (parts_eq_iff_respelled.2 h)

/-- **Of all spellings of a path exactly the first is kept.** Of the kept paths no two spell one path, every
path is a spelling of exactly one of them, and none of them is dropped when repetitions are dropped again. -/
theorem dedup_keeps_firsts (paths : List Path) :
    (∃ places, KeepsFirsts paths (dedup paths) places) ∧
      (dedup paths).Pairwise (fun p q => ¬ Respelled p q) ∧
      (∀ p ∈ paths, ∃! k : Nat, ∃ q, (dedup paths)[k]? = some q ∧ Respelled p q) ∧
      dedup (dedup paths) = dedup paths := by
  obtain ⟨places, hfirsts⟩ := exists_keepsFirsts_dedup paths
  refine ⟨⟨places, hfirsts⟩, pairwise_dedup paths, fun p hp => ?_, dedup_eq_self (pairwise_dedup paths)⟩
  obtain ⟨q, hq, hpq⟩ := hfirsts.covers p hp
  obtain ⟨k, hk⟩ := List.getElem?_of_mem hq
  refine ⟨k, ⟨q, hk, hpq⟩, fun k' hk' => ?_⟩
  obtain ⟨q', hq', hpq'⟩ := hk'
  by_contra hne
  exact parts_ne_of_dedup hne hq' hk (parts_eq_iff_respelled.2 (hpq'.symm.trans hpq))

/-- A slash too many, a dot between slashes and a slash at the end say nothing; a leading dot does. -/
example : dedup [⟨"src//a.tsx".toList⟩, ⟨"./src/a.tsx".toList⟩, ⟨"src/./a.tsx/".toList⟩] =
    [⟨"src//a.tsx".toList⟩, ⟨"./src/a.tsx".toList⟩] := by
  decide +kernel

end SpinnerMarkup.Path
