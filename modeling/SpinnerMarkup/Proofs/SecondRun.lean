import SpinnerMarkup.Proofs.BytePreservation

/-! When a second run of a catalog finds nothing left to do.

A rule replaces every element it takes in the text it sees, so what a second run finds must have
been out of the rule's sight: the element was not in the scan of the text the rule passed over.
Replacing an element can bring another into sight, since its quotation marks and its closing mark
go with it. `apply_apply_iff` makes this exact. An element is told by its place in the source, and
the second run finds nothing exactly when no rule takes an element of the final text that was out of
sight during that rule's pass. `second_run_fires` is a source on which the second run does find
something. -/
namespace SpinnerMarkup

/-! ### Places in the source -/

/-- The elements of some groups, each with its place in the source; the first group stands at `n`. -/
def Group.sightings (n : Nat) : List Group → List (Nat × Element)
  | [] => []
  | g :: gs => (g.element.map (n, ·)).toList ++ sightings (n + g.segments.source.length) gs

theorem Group.mem_sightings_cons {n k : Nat} {e : Element} {g : Group} {gs : List Group} :
    (n, e) ∈ Group.sightings k (g :: gs) ↔
      (g.element = some e ∧ k = n) ∨ (n, e) ∈ Group.sightings (k + g.segments.source.length) gs := by
  rw [Group.sightings, List.mem_append]
  simp

theorem Group.le_of_mem_sightings {n k : Nat} {e : Element} {gs : List Group}
    (h : (n, e) ∈ Group.sightings k gs) : k ≤ n := by
  induction gs generalizing k with
  | nil => cases h
  | cons g gs ih =>
    rcases Group.mem_sightings_cons.1 h with ⟨-, rfl⟩ | h
    · exact Nat.le_refl k
    · have := ih h
      omega

namespace Draft

/-- The elements in the scan of a draft's text, each with the place in the source where it
begins. -/
def sightings (d : Draft) : List (Nat × Element) := Group.sightings 0 d.groups

/-- Whether the character at a place in the source stands as it stood. -/
def KeepsAt : Draft → Nat → Prop
  | [], _ => False
  | g :: d, n =>
    (g.isSwapped = false ∧ n = 0) ∨ (g.source.length ≤ n ∧ KeepsAt d (n - g.source.length))

theorem KeepsAt.lt {d : Draft} {n : Nat} (h : d.KeepsAt n) : n < d.source.length := by
  induction d generalizing n with
  | nil => cases h
  | cons g d ih =>
    rw [source_cons, List.length_append]
    rcases h with ⟨hg, rfl⟩ | ⟨hle, h⟩
    · cases g with
      | kept c => exact Nat.add_pos_left Nat.one_pos _
      | swapped old r => cases hg
    · have := ih h
      omega

theorem keepsAt_append {a b : Draft} {n : Nat} :
    KeepsAt (a ++ b) n ↔ KeepsAt a n ∨ (a.source.length ≤ n ∧ KeepsAt b (n - a.source.length)) := by
  induction a generalizing n with
  | nil => simp [KeepsAt]
  | cons g a ih =>
    rw [List.cons_append, KeepsAt, KeepsAt, ih, source_cons, List.length_append, Nat.sub_sub]
    constructor
    · rintro (h | ⟨hle, h | ⟨hle', h⟩⟩)
      · exact .inl (.inl h)
      · exact .inl (.inr ⟨hle, h⟩)
      · exact .inr ⟨by omega, h⟩
    · rintro ((h | ⟨hle, h⟩) | ⟨hle, h⟩)
      · exact .inl h
      · exact .inr ⟨hle, .inl h⟩
      · exact .inr ⟨by omega, .inr ⟨by omega, h⟩⟩

/-- An invocation keeps no character of what it stands for. -/
theorem not_keepsAt_swapped (old : Text) (r : Rule) (n : Nat) : ¬ KeepsAt [.swapped old r] n := by
  simp [KeepsAt, Segment.isSwapped]

end Draft

/-! ### What a pass keeps -/

theorem Rule.keepsAt_revised {r : Rule} {gs : List Group} {n : Nat}
    (h : Draft.KeepsAt (gs.flatMap r.revised) n) : Draft.KeepsAt (gs.flatMap Group.segments) n := by
  induction gs generalizing n with
  | nil => exact h
  | cons g gs ih =>
    rw [List.flatMap_cons, Draft.keepsAt_append, r.source_revised] at h
    rw [List.flatMap_cons, Draft.keepsAt_append]
    rcases h with h | ⟨hle, h⟩
    · cases ht : r.takesGroup g with
      | true =>
        rw [Rule.revised_of_takes ht] at h
        exact absurd h (Draft.not_keepsAt_swapped _ r n)
      | false =>
        rw [Rule.revised_of_not_takes ht] at h
        exact .inl h
    · exact .inr ⟨hle, ih h⟩

/-- A pass brings no character of the source back. -/
theorem Rule.keepsAt_of_revise {r : Rule} {d : Draft} {n : Nat} (h : (r.revise d).KeepsAt n) :
    d.KeepsAt n := by
  rw [← d.groups_aligned.segments]
  exact r.keepsAt_revised h

theorem keepsAt_of_draftAfter {pre post : List Rule} {source : Text} {n : Nat}
    (h : (draftAfter (pre ++ post) source).KeepsAt n) : (draftAfter pre source).KeepsAt n := by
  induction post using List.reverseRecOn with
  | nil => rwa [List.append_nil] at h
  | append_singleton post r ih =>
    rw [← List.append_assoc, draftAfter_snoc] at h
    exact ih (Rule.keepsAt_of_revise h)

/-! ### What a pass has in sight -/

theorem Group.keepsAt_of_sightings {gs : List Group} {n k : Nat} {e : Element}
    (hw : ∀ g ∈ gs, ∀ e, g.element = some e → g.segments.text = e.source)
    (h : (n, e) ∈ Group.sightings k gs) : Draft.KeepsAt (gs.flatMap Group.segments) (n - k) := by
  induction gs generalizing k with
  | nil => cases h
  | cons g gs ih =>
    rw [List.flatMap_cons, Draft.keepsAt_append]
    rcases Group.mem_sightings_cons.1 h with ⟨he, rfl⟩ | h
    · obtain ⟨y, hy, -⟩ := Draft.exists_kept_of_opening
        ((hw g (List.mem_cons_self ..) e he).trans (List.append_assoc _ _ _))
      rw [hy, Nat.sub_self]
      exact .inl (.inl ⟨rfl, rfl⟩)
    · have hle := Group.le_of_mem_sightings h
      refine .inr ⟨by omega, ?_⟩
      rw [Nat.sub_sub]
      exact ih (fun x hx => hw x (List.mem_cons_of_mem g hx)) h

/-- The first character of an element in sight stands as it stood in the source. -/
theorem Draft.keepsAt_of_sightings {d : Draft} {n : Nat} {e : Element} (h : (n, e) ∈ d.sightings) :
    d.KeepsAt n := by
  have ha := d.groups_aligned
  rw [← ha.segments]
  exact Group.keepsAt_of_sightings (fun g hg e he => (ha.whole g hg e he).1) h

theorem Rule.not_keepsAt_revised {r : Rule} {gs : List Group} {n k : Nat} {e : Element}
    (hs : ∀ g ∈ gs, ∀ e, g.element = some e → g.segments.source ≠ []) (hr : r.replaces e = true)
    (h : (n, e) ∈ Group.sightings k gs) : ¬ Draft.KeepsAt (gs.flatMap r.revised) (n - k) := by
  induction gs generalizing k with
  | nil => cases h
  | cons g gs ih =>
    rw [List.flatMap_cons, Draft.keepsAt_append, r.source_revised]
    rcases Group.mem_sightings_cons.1 h with ⟨he, rfl⟩ | h
    · -- the element is taken, and what stands in its place keeps nothing of it
      have ht : r.takesGroup g = true := by simp [takesGroup, he, hr]
      have hpos := List.length_pos_iff.2 (hs g (List.mem_cons_self ..) e he)
      rw [revised_of_takes ht, Nat.sub_self]
      rintro (hk | ⟨hle, -⟩)
      · exact Draft.not_keepsAt_swapped _ r 0 hk
      · omega
    · have hle := Group.le_of_mem_sightings h
      rw [Nat.sub_sub]
      rintro (hk | ⟨-, hk⟩)
      · have hlt := hk.lt
        rw [r.source_revised] at hlt
        omega
      · exact ih (fun x hx => hs x (List.mem_cons_of_mem g hx)) h hk

/-- An element that a rule has in sight and takes is gone after its pass. -/
theorem not_keepsAt_of_taken {pre : List Rule} {r : Rule} {source : Text} {n : Nat} {e : Element}
    (h : (n, e) ∈ (draftAfter pre source).sightings) (hr : r.replaces e = true) :
    ¬ (draftAfter (pre ++ [r]) source).KeepsAt n := by
  rw [draftAfter_snoc]
  refine Rule.not_keepsAt_revised (fun g hg f hf hnil => ?_) hr h
  have hb := (traces_run pre source).bounded hg hf
  rw [hnil] at hb
  cases hb.closes

theorem Group.found_mem_pieces_iff {gs : List Group} {e : Element} {k : Nat} :
    .found e ∈ gs.flatMap Group.pieces ↔ ∃ n, (n, e) ∈ Group.sightings k gs := by
  induction gs generalizing k with
  | nil => simp [Group.sightings]
  | cons g gs ih =>
    have hg : .found e ∈ g.pieces ↔ g.element = some e := by
      unfold Group.pieces
      split <;> simp_all [eq_comm]
    rw [List.flatMap_cons, List.mem_append, hg, ih (k := k + g.segments.source.length)]
    simp only [Group.mem_sightings_cons, exists_or, exists_eq_right']

/-- The elements in sight are those of the scan. -/
theorem Draft.mem_occurrences_iff {d : Draft} {e : Element} :
    e ∈ Element.pattern.occurrences d.text ↔ ∃ n, (n, e) ∈ d.sightings := by
  rw [Element.mem_occurrences, ← d.groups_aligned.pieces]
  exact Group.found_mem_pieces_iff

/-! ### The second run -/

/-- **A second run finds nothing exactly when no rule takes an element of the final text that was
out of sight during its own pass.** -/
theorem apply_apply_iff (c : Catalog) (source : Text) :
    c.apply (c.apply source).text = ⟨(c.apply source).text, []⟩ ↔
      ∀ pre r post, c.rules = pre ++ r :: post → ∀ n e,
        (n, e) ∈ (draftAfter c.rules source).sightings →
          (n, e) ∉ (draftAfter pre source).sightings → r.replaces e = false := by
  rw [c.apply_eq_self_iff, c.apply_text, ← text_draftAfter]
  constructor
  · intro h pre r post hrules n e hn _
    exact h r (by rw [hrules]; simp) e (Draft.mem_occurrences_iff.2 ⟨n, hn⟩)
  · intro h r hr e he
    obtain ⟨n, hn⟩ := Draft.mem_occurrences_iff.1 he
    obtain ⟨pre, post, hrules⟩ := List.append_of_mem hr
    by_contra hne
    have htaken : r.replaces e = true := by simpa using hne
    have hseen : (n, e) ∈ (draftAfter pre source).sightings := by
      by_contra hout
      exact hne (h pre r post hrules n e hn hout)
    -- what a rule has in sight and takes is gone for good, yet here it is in the final text
    apply not_keepsAt_of_taken hseen htaken
    apply @keepsAt_of_draftAfter (pre ++ [r]) post
    rw [List.append_assoc, List.singleton_append, ← hrules]
    exact Draft.keepsAt_of_sightings hn

/-- A spinner in a string of a spinner. The outer element cannot be read at first: a quotation mark
inside the inner one ends its string, and a bare closing mark follows. -/
def spinnerInString : Text :=
  "<div className=\"animate-spin\" title='<div className=\"animate-spin\" alt=\"'>\"/>' />".toList

/-- The replacement of the inner element brings the outer one into sight, after the last pass. -/
theorem second_run_fires :
    (Catalog.standard.apply (Catalog.standard.apply spinnerInString).text).hits =
        [⟨"generic-centered".toList, .centered, 1⟩] ∧
      (Catalog.standard.apply (Catalog.standard.apply spinnerInString).text).text ≠
        (Catalog.standard.apply spinnerInString).text := by
  decide +kernel

end SpinnerMarkup
