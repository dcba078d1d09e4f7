import SpinnerMarkup.Proofs.Draft
import SpinnerMarkup.Proofs.UpdateOutcome

/-! What an update leaves alone.

Beside a run of the catalog goes the draft of the text it works on. `traces_run`: whatever the
rules, the draft's source is the source and its text is the text of the run; every invocation in
it stands for a part of the source that begins with `<div` and ends with `>`, and was put there by
a rule that has a hit; there are at most as many of them as elements were replaced, and one at
least if the run changed anything. The import is one line put in at one place (`place_split`). -/
namespace SpinnerMarkup

/-! ### What an invocation stands for -/

/-- A part of the source from an opening to a closing mark. -/
structure Bounded (old : Text) : Prop where
  opens : Element.opening <+: old
  closes : old.getLast? = some '>'

namespace Draft

/-- Characters that open no tag stand as they stood in the source. -/
theorem source_front {d : Draft} {w t : Text} (h : d.text = w ++ t) (hw : '<' ∉ w) :
    w <+: d.source := by
  induction w generalizing d with
  | nil => exact List.nil_prefix
  | cons c w ih =>
    obtain ⟨hc, hw'⟩ : '<' ≠ c ∧ '<' ∉ w := by simpa using hw
    cases d with
    | nil => cases h
    | cons g d =>
      cases g with
      | kept b =>
        obtain ⟨rfl, hd⟩ : b = c ∧ text d = w ++ t := by simpa [Segment.text] using h
        exact List.cons_prefix_cons.2 ⟨rfl, ih hd hw'⟩
      | swapped old r =>
        obtain ⟨v, hv, -⟩ := r.replacement.render_shape
        rw [text_cons, Segment.text, hv] at h
        exact absurd (List.cons.inj h).1 hc

/-- Where a draft's text opens an element, the mark that opens it stands as it stood. -/
theorem exists_kept_of_opening {d : Draft} {t : Text} (h : d.text = Element.opening ++ t) :
    ∃ y : Draft, d = .kept '<' :: y ∧ y.text = ['d', 'i', 'v'] ++ t := by
  cases d with
  | nil => cases h
  | cons g d =>
    cases g with
    | kept b =>
      obtain ⟨rfl, hd⟩ : b = '<' ∧ text d = ['d', 'i', 'v'] ++ t := by
        simpa [Segment.text, Element.opening] using h
      exact ⟨d, rfl, hd⟩
    | swapped old r =>
      obtain ⟨v, hv, -⟩ := r.replacement.render_shape
      rw [text_cons, Segment.text, hv] at h
      simp [Element.opening] at h

/-- The opening of an element stands as it stood in the source. -/
theorem opening_front {d : Draft} {t : Text} (h : d.text = Element.opening ++ t) :
    Element.opening <+: d.source := by
  obtain ⟨y, rfl, hy⟩ := exists_kept_of_opening h
  exact List.cons_prefix_cons.2 ⟨rfl, source_front hy (by decide)⟩

/-- The closing mark of an element stands as it stood in the source, or closes what an invocation
stands for. -/
theorem closes_source {d : Draft} (h : d.text.getLast? = some '>')
    (hs : ∀ old r, .swapped old r ∈ d → Bounded old) : d.source.getLast? = some '>' := by
  rcases List.eq_nil_or_concat d with rfl | ⟨d, g, rfl⟩
  · cases h
  · rw [List.concat_eq_append] at h hs ⊢
    cases g with
    | kept c =>
      obtain rfl : c = '>' := by simpa [Segment.text] using h
      simp [Segment.source]
    | swapped old r => simp [Segment.source, (hs old r (by simp)).closes]

/-- The source under an element goes from an opening to a closing mark. -/
theorem bounded_source {d : Draft} {e : Element} (h : d.text = e.source)
    (he : Element.read? e.source = some e) (hs : ∀ old r, .swapped old r ∈ d → Bounded old) :
    Bounded d.source :=
  ⟨opening_front (h.trans (List.append_assoc _ _ _)),
    closes_source (by rw [h]; exact Element.getLast?_source he) hs⟩

/-- The number of invocations in a draft. -/
def swapCount (d : Draft) : Nat := d.countP Segment.isSwapped

theorem swapCount_append (d d' : Draft) : swapCount (d ++ d') = swapCount d + swapCount d' :=
  List.countP_append

end Draft

/-! ### One pass over a draft -/

namespace Rule

theorem revise_of_count_eq_zero {r : Rule} {d : Draft} (h : r.count d.text = 0) : r.revise d = d := by
  rw [count_text, List.countP_eq_zero] at h
  conv => rhs; rw [← d.groups_aligned.segments]
  exact List.flatMap_congr fun g hg => revised_of_not_takes (by simpa using h g hg)

/-- An invocation in a revised draft was there before, or is the rule's and stands for the source
under an element it takes. -/
theorem swapped_mem_revise {r r' : Rule} {d : Draft} {old : Text}
    (h : .swapped old r' ∈ r.revise d) :
    .swapped old r' ∈ d ∨ r' = r ∧ ∃ g ∈ d.groups, ∃ e, g.element = some e ∧ old = g.segments.source := by
  obtain ⟨g, hg, hmem⟩ := List.mem_flatMap.1 h
  cases ht : r.takesGroup g with
  | true =>
    obtain ⟨e, he, -⟩ := (Option.any_eq_true _ _).1 ht
    rw [revised_of_takes ht, List.mem_singleton] at hmem
    obtain ⟨rfl, rfl⟩ := Segment.swapped.inj hmem
    exact .inr ⟨rfl, g, hg, e, he, rfl⟩
  | false =>
    rw [revised_of_not_takes ht] at hmem
    rw [← d.groups_aligned.segments]
    exact .inl (List.mem_flatMap.2 ⟨g, hg, hmem⟩)

theorem swapCount_revised_le (r : Rule) (gs : List Group) :
    Draft.swapCount (gs.flatMap r.revised) ≤
      Draft.swapCount (gs.flatMap Group.segments) + gs.countP r.takesGroup := by
  induction gs with
  | nil => exact Nat.zero_le _
  | cons g gs ih =>
    simp only [List.flatMap_cons, Draft.swapCount_append, List.countP_cons]
    cases ht : r.takesGroup g with
    | true =>
      have hone : (r.revised g).swapCount = 1 := by rw [revised_of_takes ht]; rfl
      simp only [if_true]
      omega
    | false =>
      rw [revised_of_not_takes ht]
      omega

/-- A pass adds at most one invocation for each element it takes. -/
theorem swapCount_revise_le (r : Rule) (d : Draft) :
    (r.revise d).swapCount ≤ d.swapCount + r.count d.text := by
  have h := r.swapCount_revised_le d.groups
  rwa [d.groups_aligned.segments, ← count_text] at h

theorem swapCount_revised_pos (r : Rule) (gs : List Group)
    (h : 0 < Draft.swapCount (gs.flatMap Group.segments) + gs.countP r.takesGroup) :
    0 < Draft.swapCount (gs.flatMap r.revised) := by
  induction gs with
  | nil => exact h
  | cons g gs ih =>
    simp only [List.flatMap_cons, Draft.swapCount_append, List.countP_cons] at h ⊢
    cases ht : r.takesGroup g with
    | true =>
      have hone : (r.revised g).swapCount = 1 := by rw [revised_of_takes ht]; rfl
      omega
    | false =>
      rw [revised_of_not_takes ht]
      simp only [ht, Bool.false_eq_true, if_false] at h
      by_cases hs : 0 < g.segments.swapCount
      · omega
      · have := ih (by omega)
        omega

/-- Invocations may be swallowed by a larger one, but one is left. -/
theorem swapCount_revise_pos {r : Rule} {d : Draft} (h : 0 < d.swapCount + r.count d.text) :
    0 < (r.revise d).swapCount := by
  rw [count_text, ← d.groups_aligned.segments] at h
  apply swapCount_revised_pos
  rwa [d.groups_aligned.segments] at h ⊢

end Rule

/-! ### A run over a source -/

theorem Outcome.replacements_snoc (t : Text) (hits : List Hit) (h : Hit) :
    (Outcome.mk t (hits ++ [h])).replacements = (Outcome.mk t hits).replacements + h.count := by
  simp only [replacements]
  induction hits with
  | nil => simp
  | cons k hits ih =>
    rw [List.cons_append, List.foldr_cons, ih, List.foldr_cons, Nat.add_assoc]

/-- How a draft accounts for what a run of rules has made of a source. -/
structure Traces (source : Text) (rules : List Rule) (o : Outcome) (d : Draft) : Prop where
  source : d.source = source
  text : d.text = o.text
  /-- Every invocation stands for a bounded part of the source and was put there by a rule with a
  hit. -/
  swapped : ∀ old r, .swapped old r ∈ d → Bounded old ∧ r ∈ rules ∧
    ∃ n, ⟨r.name, r.replacement.component, n⟩ ∈ o.hits
  few : d.swapCount ≤ o.replacements
  one : o.changed = true → 1 ≤ d.swapCount

/-- The source under every element of the draft is bounded. -/
theorem Traces.bounded {source : Text} {rules : List Rule} {o : Outcome} {d : Draft}
    (h : Traces source rules o d) {g : Group} (hg : g ∈ d.groups) {e : Element}
    (he : g.element = some e) : Bounded g.segments.source := by
  have ha := d.groups_aligned
  obtain ⟨htext, hread⟩ := ha.whole g hg e he
  refine Draft.bounded_source htext hread fun old r hr => ?_
  have hmem : .swapped old r ∈ d := by
    rw [← ha.segments]
    exact List.mem_flatMap.2 ⟨g, hg, hr⟩
  exact (h.swapped old r hmem).1

theorem traces_start (source : Text) : Traces source [] ⟨source, []⟩ (Draft.ofSource source) where
  source := Draft.source_ofSource source
  text := Draft.text_ofSource source
  swapped old r h := by simp [Draft.ofSource] at h
  few := by
    rw [Draft.swapCount, List.countP_eq_zero.2 fun g hg => ?_]
    · exact Nat.zero_le _
    · obtain ⟨c, -, rfl⟩ := List.mem_map.1 hg
      simp [Segment.isSwapped]
  one h := by cases h

/-- One pass. -/
theorem traces_step {source : Text} {rules : List Rule} {o : Outcome} {d : Draft}
    (h : Traces source rules o d) (r : Rule) :
    Traces source (rules ++ [r]) (o.step r) (r.revise d) := by
  by_cases hc : r.count o.text = 0
  · rw [Outcome.step_of_count_eq_zero hc, Rule.revise_of_count_eq_zero (by rw [h.text]; exact hc)]
    refine ⟨h.source, h.text, fun old r' hr => ?_, h.few, h.one⟩
    obtain ⟨hb, hmem, hit⟩ := h.swapped old r' hr
    exact ⟨hb, List.mem_append_left _ hmem, hit⟩
  · have hcount : r.count d.text = r.count o.text := by rw [h.text]
    rw [Outcome.step_of_count_ne_zero hc]
    refine ⟨by rw [r.source_revise, h.source], by rw [r.text_revise, h.text], ?_, ?_, fun _ => ?_⟩
    · intro old r' hr
      rcases Rule.swapped_mem_revise hr with hold | ⟨rfl, g, hg, e, he, rfl⟩
      · obtain ⟨hb, hmem, n, hn⟩ := h.swapped old r' hold
        exact ⟨hb, List.mem_append_left _ hmem, n, List.mem_append_left _ hn⟩
      · exact ⟨h.bounded hg he, by simp, _, List.mem_append_right _ (List.mem_singleton_self _)⟩
    · rw [Outcome.replacements_snoc]
      have hle := r.swapCount_revise_le d
      have hfew : d.swapCount ≤ (Outcome.mk (r.apply o.text) o.hits).replacements := h.few
      rw [hcount] at hle
      exact Nat.le_trans hle (Nat.add_le_add_right hfew _)
    · exact Rule.swapCount_revise_pos (by omega)

/-- **The draft beside a run accounts for all the run has done.** -/
theorem traces_run (rules : List Rule) (source : Text) :
    Traces source rules (rules.foldl Outcome.step ⟨source, []⟩) (draftAfter rules source) := by
  induction rules using List.reverseRecOn with
  | nil => exact traces_start source
  | append_singleton rules r ih =>
    rw [List.foldl_append, draftAfter_snoc]
    exact traces_step ih r

/-! ### The inserted line -/

namespace Import

theorem afterLine_split (s : Text) : (afterLine s).before ++ (afterLine s).after = s := by
  unfold afterLine
  split
  · simp
  · next c rest h => rw [List.append_assoc, List.singleton_append, ← h, List.takeWhile_append_dropWhile]

theorem afterLastStatement?_split {s : Text} {p : Place} (h : afterLastStatement? s = some p) :
    p.before ++ p.after = s := by
  unfold afterLastStatement? at h
  dsimp only at h
  split at h
  · cases h
  · obtain rfl := Option.some.inj h
    rw [← List.flatMap_append, ← List.reverse_append, List.takeWhile_append_dropWhile,
      List.reverse_reverse, Pattern.flatMap_source_scan]

/-- **The place for a declaration divides the text.** -/
theorem place_split (s : Text) : (place s).before ++ (place s).after = s := by
  unfold place
  split
  · next last h =>
    show last.before ++ (afterLine last.after).before ++ (afterLine last.after).after = s
    rw [List.append_assoc, afterLine_split, afterLastStatement?_split h]
  · obtain ⟨r, hr⟩ := prologueFrom_front 0 s
    exact List.prefix_iff_eq_append.1 ⟨r, hr.symm⟩

/-- What separates an inserted line from the text before it. -/
def separator (before eol : Text) : Text :=
  if before = [] ∨ before.getLast? = some '\n' then [] else eol

theorem insertLine_eq (p : Place) (eol line : Text) :
    p.insertLine eol line = p.before ++ (separator p.before eol ++ line ++ eol) ++ p.after := by
  have hsep : (if p.before.getLast?.all (· == '\n') then [] else eol) = separator p.before eol := by
    unfold separator
    cases h : p.before.getLast? with
    | none => simp [List.getLast?_eq_none_iff.1 h]
    | some c =>
      have hne : p.before ≠ [] := by
        intro hn
        rw [hn] at h
        cases h
      simp [hne]
  simp only [Place.insertLine, hsep, List.append_assoc]

end Import

/-! ### The whole update -/

/-- No element of a draft's scan lies over a part of a segment: each is made of whole ones, so an
invocation is inside it or outside it. -/
def Draft.Whole (d : Draft) : Prop :=
  ∀ ps e qs, Element.pattern.scan d.text = ps ++ .found e :: qs →
    ∃ x g y : Draft, d = x ++ g ++ y ∧ x.text = ps.flatMap Element.pattern.pieceSource ∧
      g.text = e.source

/-- What an update keeps of its source. -/
structure Preserves (settings : Settings) (source : Text) (u : Update) : Prop where
  /-- The draft beside the run accounts for the text the catalog produced. -/
  traced : Traces source settings.catalog.rules (settings.catalog.apply source)
    (draftAfter settings.catalog.rules source)
  one : 1 ≤ (draftAfter settings.catalog.rules source).swapCount
  few : (draftAfter settings.catalog.rules source).swapCount ≤ u.replacements
  /-- The text any rule sees is the text of a draft none of whose invocations it cuts through. -/
  whole : ∀ pre, pre <+: settings.catalog.rules →
    (draftAfter pre source).text = textAfter pre source ∧ (draftAfter pre source).Whole
  /-- The text is that of the catalog, or that with one line put in. -/
  line : (u.importAdded = false ∧ u.text = (settings.catalog.apply source).text) ∨
    (u.importAdded = true ∧ ∃ a b, (settings.catalog.apply source).text = a ++ b ∧
      u.text = a ++ (Import.separator a (Import.lineEnd (settings.catalog.apply source).text) ++
        Import.declaration settings.module
          ((settings.catalog.apply source).components.map Component.symbol) ++
        Import.lineEnd (settings.catalog.apply source).text) ++ b)

/-- **An update keeps every character outside the elements it replaces and the line it puts in.** -/
theorem update?_preserves (settings : Settings) (source : Text) (u : Update)
    (h : settings.update? source = some u) : Preserves settings source u := by
  have ht := traces_run settings.catalog.rules source
  have hw : ∀ pre, pre <+: settings.catalog.rules →
      (draftAfter pre source).text = textAfter pre source ∧ (draftAfter pre source).Whole :=
    fun pre _ => ⟨text_draftAfter pre source, fun _ _ _ => Draft.exists_segments⟩
  cases Settings.updated_of_update? h with
  | imported hchanged => exact ⟨ht, ht.one hchanged, ht.few, hw, .inl ⟨rfl, rfl⟩⟩
  | declared hchanged =>
    exact ⟨ht, ht.one hchanged, ht.few, hw,
      .inr ⟨rfl, _, _, (Import.place_split _).symm, Import.insertLine_eq _ _ _⟩⟩

/-- A spinner in an attribute of a spinner. -/
def spinnerInSpinner : Text :=
  "<div className=\"animate-spin\" title='".toList ++
    "<div className=\"animate-spin rounded-full h-4\" alt=\"'>\"/>".toList ++ "' />".toList

/-- Its update: the inner replacement lets the outer element be read, and is swallowed by it. -/
def spinnerInSpinnerUpdate : Update where
  text := "import \x7b LoadingInline, LoadingCentered \x7d from \"@/components/ui/Loading\";".toList ++
    "\n<LoadingCentered />".toList
  replacements := 2
  importAdded := true

theorem spinnerInSpinner_preserved :
    Settings.update? {} spinnerInSpinner = some spinnerInSpinnerUpdate ∧
      Preserves {} spinnerInSpinner spinnerInSpinnerUpdate := by
  have h : Settings.update? {} spinnerInSpinner = some spinnerInSpinnerUpdate := by decide +kernel
  exact ⟨h, update?_preserves _ _ _ h⟩

end SpinnerMarkup
