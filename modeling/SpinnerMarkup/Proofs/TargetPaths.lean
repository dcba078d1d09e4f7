import SpinnerMarkup.Proofs.PathParts

/-! Target paths without repetitions, and where they lead.

Of the paths with the same parts the first is kept (`dedup_eq_firsts`), so no two kept paths have the
same parts (`nodup_parts_dedup`). This is about the paths as they were given. A run takes them from a
root, and joining drops a leading dot and lets an absolute path stand for itself. So two kept paths may
lead to one place all the same; `joined_same_iff` says exactly which do. -/
namespace SpinnerMarkup.Path

theorem same_iff {p q : Path} : p.same q = true ↔ p.parts = q.parts := beq_iff_eq

/-! ### First occurrences -/

/-- The paths whose parts are neither among those seen nor those of a path before them. -/
def firstsAfter (seen : List (List Part)) : List Path → List Path
  | [] => []
  | p :: paths =>
    if p.parts ∈ seen then firstsAfter (p.parts :: seen) paths
    else p :: firstsAfter (p.parts :: seen) paths

/-- The paths that are not the same as one before them. -/
def firsts (paths : List Path) : List Path := firstsAfter [] paths

theorem any_same_iff {kept : List Path} {p : Path} :
    kept.any (same p) = true ↔ p.parts ∈ kept.map parts := by
  simp only [List.any_eq_true, same_iff, List.mem_map]
  exact exists_congr fun q => and_congr_right fun _ => eq_comm

/-- The kept paths and what is added to them, if the parts of the kept ones are those seen so far. -/
theorem foldl_keep_eq {paths kept : List Path} {seen : List (List Part)}
    (h : ∀ parts, parts ∈ kept.map Path.parts ↔ parts ∈ seen) :
    paths.foldl (fun kept p => if kept.any (same p) then kept else kept ++ [p]) kept =
      kept ++ firstsAfter seen paths := by
  induction paths generalizing kept seen with
  | nil => simp [firstsAfter]
  | cons p paths ih =>
    rw [List.foldl_cons, firstsAfter]
    by_cases hseen : p.parts ∈ seen
    · rw [if_pos (any_same_iff.2 ((h p.parts).2 hseen)), if_pos hseen]
      refine ih fun parts => ?_
      rw [h, List.mem_cons]
      exact ⟨.inr, fun hparts => hparts.elim (fun heq => heq ▸ hseen) id⟩
    · have hnew : ¬ kept.any (same p) = true := fun hany => hseen ((h p.parts).1 (any_same_iff.1 hany))
      rw [if_neg hnew, if_neg hseen, ih, List.append_assoc, List.singleton_append]
      intro parts
      rw [List.map_append, List.mem_append, h, List.mem_cons, List.map_singleton, List.mem_singleton]
      exact or_comm

/-- **Of the paths that are the same, the first is kept.** -/
theorem dedup_eq_firsts (paths : List Path) : dedup paths = firsts paths := calc
  dedup paths = [] ++ firstsAfter [] paths := foldl_keep_eq fun _ => Iff.rfl
  _ = firsts paths := rfl

theorem not_mem_of_mem_firstsAfter {seen : List (List Part)} {paths : List Path} {p : Path}
    (h : p ∈ firstsAfter seen paths) : p.parts ∉ seen := by
  induction paths generalizing seen with
  | nil => cases h
  | cons q paths ih =>
    have hrest : p ∈ firstsAfter (q.parts :: seen) paths → p.parts ∉ seen := fun hp hmem =>
      ih hp (List.mem_cons_of_mem q.parts hmem)
    rw [firstsAfter] at h
    by_cases hseen : q.parts ∈ seen
    · rw [if_pos hseen] at h
      exact hrest h
    · rw [if_neg hseen] at h
      rcases List.mem_cons.1 h with rfl | h
      · exact hseen
      · exact hrest h

theorem nodup_parts_firstsAfter (seen : List (List Part)) (paths : List Path) :
    ((firstsAfter seen paths).map parts).Nodup := by
  induction paths generalizing seen with
  | nil => exact List.nodup_nil
  | cons p paths ih =>
    rw [firstsAfter]
    split
    · exact ih _
    · rw [List.map_cons, List.nodup_cons]
      refine ⟨fun hmem => ?_, ih _⟩
      obtain ⟨q, hq, hparts⟩ := List.mem_map.1 hmem
      exact not_mem_of_mem_firstsAfter hq (by rw [hparts]; exact List.mem_cons_self ..)

/-- **No two of the kept paths have the same parts.** -/
theorem nodup_parts_dedup (paths : List Path) : ((dedup paths).map parts).Nodup := by
  rw [dedup_eq_firsts]
  exact nodup_parts_firstsAfter [] paths

theorem parts_ne_of_dedup {paths : List Path} {i j : Nat} {p q : Path} (hij : i ≠ j)
    (hp : (dedup paths)[i]? = some p) (hq : (dedup paths)[j]? = some q) : p.parts ≠ q.parts := by
  have hi : ((dedup paths).map parts)[i]? = some p.parts := by rw [List.getElem?_map, hp]; rfl
  have hj : ((dedup paths).map parts)[j]? = some q.parts := by rw [List.getElem?_map, hq]; rfl
  intro hparts
  have hlt : i < ((dedup paths).map parts).length := (List.getElem?_eq_some_iff.1 hi).1
  exact hij ((List.getElem?_inj hlt (nodup_parts_dedup paths)).1 (by rw [hi, hj, hparts]))

/-! ### Where kept paths meet -/

/-- Two paths that differ in a leading dot and in nothing else. -/
def DotApart (p q : Path) : Prop := p.parts = .current :: q.parts ∨ q.parts = .current :: p.parts

/-- An absolute path that spells out what a relative one names from a root, a leading dot left out. -/
structure SpellsOut (root p q : Path) : Prop where
  isAbsolute : p.isAbsolute = true
  isRelative : q.isAbsolute = false
  parts : p.parts = root.parts ++ q.steps

/-- What stands behind a leading dot is relative and has the same steps. -/
theorem steps_of_dot {p q : Path} (h : p.parts = .current :: q.parts) :
    p.isAbsolute = false ∧ q.isAbsolute = false ∧ p.steps = q.steps := by
  have hp : ¬ p.isAbsolute = true := by
    rw [← head?_parts_eq_root_iff, h]
    simp
  have hq : ¬ q.isAbsolute = true := fun hq => by
    rw [← root_mem_parts_iff] at hp hq
    exact hp (h ▸ List.mem_cons_of_mem _ hq)
  refine ⟨by simpa using hp, by simpa using hq, ?_⟩
  rw [steps_eq_filter, steps_eq_filter, h, List.filter_cons_of_neg (by simp)]

theorem dotApart_iff {p q : Path} (hne : p.parts ≠ q.parts) :
    DotApart p q ↔ p.isAbsolute = false ∧ q.isAbsolute = false ∧ p.steps = q.steps := by
  constructor
  · rintro (h | h)
    · exact steps_of_dot h
    · obtain ⟨hq, hp, hsteps⟩ := steps_of_dot h
      exact ⟨hp, hq, hsteps.symm⟩
  · rintro ⟨hp, hq, hsteps⟩
    have hlead : ∀ {r : Path}, r.isAbsolute = false → r.lead = [.current] ∨ r.lead = [] := by
      intro r hr
      rcases r.lead_cases with ⟨habs, -⟩ | ⟨-, hlead⟩
      · rw [hr] at habs
        cases habs
      · exact hlead
    rw [DotApart]
    rw [parts_eq p, parts_eq q, hsteps] at hne ⊢
    rcases hlead hp with hpl | hpl <;> rcases hlead hq with hql | hql <;> simp [hpl, hql] at hne ⊢

theorem parts_join_eq_iff {root p q : Path} (hroot : root.text ≠ []) (hne : p.parts ≠ q.parts) :
    (root.join p).parts = (root.join q).parts ↔
      DotApart p q ∨ SpellsOut root p q ∨ SpellsOut root q p := by
  rw [dotApart_iff hne]
  cases hp : p.isAbsolute with
  | true =>
    rw [join_of_isAbsolute root hp]
    cases hq : q.isAbsolute with
    | true =>
      rw [join_of_isAbsolute root hq]
      refine iff_of_false hne ?_
      rintro (⟨h, -⟩ | h | h)
      · cases h
      · exact absurd (hq.symm.trans h.isRelative) (by decide)
      · exact absurd (hp.symm.trans h.isRelative) (by decide)
    | false =>
      rw [parts_join hroot hq]
      refine ⟨fun h => .inr (.inl ⟨hp, hq, h⟩), ?_⟩
      rintro (⟨h, -⟩ | h | h)
      · cases h
      · exact h.parts
      · exact absurd (hp.symm.trans h.isRelative) (by decide)
  | false =>
    rw [parts_join hroot hp]
    cases hq : q.isAbsolute with
    | true =>
      rw [join_of_isAbsolute root hq]
      refine ⟨fun h => .inr (.inr ⟨hq, hp, h.symm⟩), ?_⟩
      rintro (⟨-, h, -⟩ | h | h)
      · cases h
      · exact absurd (hq.symm.trans h.isRelative) (by decide)
      · exact h.parts.symm
    | false =>
      rw [parts_join hroot hq, List.append_cancel_left_eq]
      refine ⟨fun h => .inl ⟨rfl, rfl, h⟩, ?_⟩
      rintro (⟨-, -, h⟩ | h | h)
      · exact h
      · exact absurd (hp.symm.trans h.isAbsolute) (by decide)
      · exact absurd (hq.symm.trans h.isAbsolute) (by decide)

/-- **Two kept paths lead to the same place from a root exactly when only a leading dot sets them apart, or
one is absolute and spells out what the other names from the root.** -/
theorem joined_same_iff {root : Path} (hroot : root.text ≠ []) {paths : List Path} {i j : Nat} (hij : i ≠ j)
    {p q : Path} (hp : (dedup paths)[i]? = some p) (hq : (dedup paths)[j]? = some q) :
    (root.join p).same (root.join q) = true ↔
      DotApart p q ∨ SpellsOut root p q ∨ SpellsOut root q p := by
  rw [same_iff]
  exact parts_join_eq_iff hroot (parts_ne_of_dedup hij hp hq)

/-- One page in four spellings, of which the third is the same path as the first. -/
def pageSpellings : List Path :=
  [⟨"src/page.tsx".toList⟩, ⟨"./src/page.tsx".toList⟩, ⟨"src//./page.tsx".toList⟩,
    ⟨"/web/src/page.tsx".toList⟩]

/-- The directory that the names are taken from. -/
def webRoot : Path := ⟨"/web/".toList⟩

theorem spelledOut_meets :
    webRoot.text ≠ [] ∧ (0 : Nat) ≠ 2 ∧ (dedup pageSpellings)[0]? = some ⟨"src/page.tsx".toList⟩ ∧
      (dedup pageSpellings)[2]? = some ⟨"/web/src/page.tsx".toList⟩ ∧
      (webRoot.join ⟨"src/page.tsx".toList⟩).same (webRoot.join ⟨"/web/src/page.tsx".toList⟩) = true := by
  have hroot : webRoot.text ≠ [] := by decide
  have hne : (0 : Nat) ≠ 2 := by decide
  have hp : (dedup pageSpellings)[0]? = some ⟨"src/page.tsx".toList⟩ := by decide +kernel
  have hq : (dedup pageSpellings)[2]? = some ⟨"/web/src/page.tsx".toList⟩ := by decide +kernel
  have hspelled : SpellsOut webRoot ⟨"/web/src/page.tsx".toList⟩ ⟨"src/page.tsx".toList⟩ :=
    ⟨by decide +kernel, by decide +kernel, by decide +kernel⟩
  exact ⟨hroot, hne, hp, hq, (joined_same_iff hroot hne hp hq).2 (.inr (.inr hspelled))⟩

/-- **Kept paths that lead to the same place**: only a leading dot sets them apart. -/
theorem leadingDot_meets :
    dedup pageSpellings = [⟨"src/page.tsx".toList⟩, ⟨"./src/page.tsx".toList⟩,
        ⟨"/web/src/page.tsx".toList⟩] ∧
      ¬ ∀ (root : Path) (paths : List Path) (i j : Nat) (p q : Path), root.text ≠ [] → i ≠ j →
        (dedup paths)[i]? = some p → (dedup paths)[j]? = some q →
        (root.join p).same (root.join q) = false := by
  refine ⟨by decide +kernel, fun hall => ?_⟩
  have hsame := hall ⟨"web".toList⟩ pageSpellings 0 1 ⟨"src/page.tsx".toList⟩ ⟨"./src/page.tsx".toList⟩
    (by decide) (by decide) (by decide +kernel) (by decide +kernel)
  exact absurd hsame (by decide +kernel)

end SpinnerMarkup.Path
