import SpinnerMarkup.Import.Insertion
import SpinnerMarkup.Proofs.Reading

/-! Which texts import a module.

`Lead` is the grammar of what may stand between `import` and the quoted module, and `Mentions` the
grammar of a line that imports the module. `lineImports_iff` says that the recogniser accepts the lines
of that grammar and no others, and `importsModule_iff` that a text imports a module exactly when some
line of it mentions the module. For a module without a pattern no text is told apart
(`recognise_eq_error_iff`); for any other an import is added exactly to a text that is not recognised as
one that has it (`add_eq_ok_none_iff`, `add_eq_ok_some_iff`). -/
namespace SpinnerMarkup.Import

open Text
open Element (Blanks)

/-! ### Lines -/

theorem mem_tails_iff {s l : Text} : l ∈ lineStarts.tails s ↔ ∃ a, s = a ++ '\n' :: l := by
  induction s with
  | nil => simp [lineStarts.tails]
  | cons c s ih =>
    have hcons : (∃ a, c :: s = a ++ '\n' :: l) ↔ (c = '\n' ∧ s = l) ∨ ∃ a, s = a ++ '\n' :: l := by
      constructor
      · rintro ⟨_ | ⟨d, a⟩, h⟩
        · exact .inl (by simpa using h)
        · exact .inr ⟨a, (List.cons.inj h).2⟩
      · rintro (⟨rfl, rfl⟩ | ⟨a, rfl⟩)
        · exact ⟨[], rfl⟩
        · exact ⟨c :: a, rfl⟩
    rw [hcons, ← ih, lineStarts.tails]
    split
    · next hc => simp [hc, eq_comm]
    · next hc => simp [hc]

theorem atLineStart_iff {a : Text} :
    atLineStart a.getLast? = true ↔ a = [] ∨ ∃ w, a = w ++ ['\n'] := by
  rcases List.eq_nil_or_concat a with rfl | ⟨w, c, rfl⟩
  · simp [atLineStart]
  · simp [atLineStart]

/-- **A line starts at the start of the text and after each line feed.** -/
theorem mem_lineStarts_iff {s l : Text} :
    l ∈ lineStarts s ↔ ∃ a, s = a ++ l ∧ atLineStart a.getLast? = true := by
  rw [lineStarts, List.mem_cons, mem_tails_iff]
  constructor
  · rintro (rfl | ⟨a, rfl⟩)
    · exact ⟨[], rfl, rfl⟩
    · exact ⟨a ++ ['\n'], by simp, atLineStart_iff.2 (.inr ⟨a, rfl⟩)⟩
  · rintro ⟨a, rfl, ha⟩
    rcases atLineStart_iff.1 ha with rfl | ⟨w, rfl⟩
    · exact .inl rfl
    · exact .inr ⟨w, by simp⟩

/-! ### Words at the end -/

/-- The word that introduces the module. -/
def fromWord : Text := ['f', 'r', 'o', 'm']

theorem endsWithFrom_iff {s : Text} :
    endsWithFrom s = true ↔
      ∃ w b, s = w ++ fromWord ++ b ∧ w.getLast?.any isWordChar = false ∧ Blanks b := by
  constructor
  · intro h
    unfold endsWithFrom at h
    split at h
    · cases h
    · next before hafter =>
      have hrev := after?_dropWhile_split hafter
      refine ⟨before.reverse, (s.reverse.takeWhile isBlank).reverse, ?_, ?_, ?_⟩
      · rw [← List.reverse_reverse s]
        conv => lhs; rw [hrev]
        simp [fromWord, fromReversed]
      · rw [List.getLast?_reverse]
        simpa using h
      · intro c hc
        exact Element.blanks_takeWhile s.reverse c (List.mem_reverse.1 hc)
  · rintro ⟨w, b, rfl, hw, hb⟩
    have hb' : Blanks b.reverse := fun c hc => hb c (List.mem_reverse.1 hc)
    have hm : isBlank 'm' = false := by decide
    have hrev : (w ++ fromWord ++ b).reverse = b.reverse ++ 'm' :: ('o' :: 'r' :: 'f' :: w.reverse) := by
      simp [fromWord]
    rw [endsWithFrom, hrev, Element.dropWhile_blanks hb' hm]
    simpa [fromReversed, after?] using hw

/-! ### What stands before the module -/

/-- What may stand between `import` and the quoted module: blanks alone, or a blank, symbols and the
word `from`. -/
inductive Lead : Text → Prop where
  | direct {b : Text} : Blanks b → Lead b
  | symbols {c : Char} {w b : Text} : isBlank c = true → (∀ d ∈ w, endsSymbols d = false) →
      w.getLast?.any isWordChar = false → Blanks b → Lead (c :: (w ++ fromWord ++ b))

theorem blanks_space : Blanks [' '] := by
  intro c hc
  obtain rfl := List.mem_singleton.1 hc
  decide

theorem endsSymbols_of_isBlank {c : Char} (h : isBlank c = true) : endsSymbols c = false := by
  have hne : c ≠ ';' := Element.ne_of_isBlank h (by decide)
  simp [endsSymbols, hne, Element.isQuote_of_isBlank h]

theorem endsSymbols_of_isQuote {c : Char} (h : isQuote c = true) : endsSymbols c = true := by
  simp [endsSymbols, h]

theorem endsSymbols_fromWord : ∀ c ∈ fromWord, endsSymbols c = false := by
  have h : (fromWord.all fun c => !endsSymbols c) = true := by decide
  simpa using h

/-- What stands before the module holds nothing that could end the symbols. -/
theorem Lead.endsSymbols_eq_false {lead : Text} (h : Lead lead) :
    ∀ c ∈ lead, endsSymbols c = false := by
  cases h with
  | direct hb => exact fun c hc => endsSymbols_of_isBlank (hb c hc)
  | symbols hc hw _ hb =>
    intro d hd
    rcases List.mem_cons.1 hd with rfl | hd
    · exact endsSymbols_of_isBlank hc
    · rw [List.append_assoc] at hd
      rcases List.mem_append.1 hd with hd | hd
      · exact hw d hd
      · rcases List.mem_append.1 hd with hd | hd
        · exact endsSymbols_fromWord d hd
        · exact endsSymbols_of_isBlank (hb d hd)

theorem namesModule_iff {m s : Text} :
    namesModule m s = true ↔
      ∃ q q' r, s = q :: (m ++ q' :: r) ∧ isQuote q = true ∧ isQuote q' = true := by
  cases s with
  | nil => simp [namesModule]
  | cons c s =>
    rw [namesModule, Bool.and_eq_true]
    constructor
    · rintro ⟨hc, h⟩
      split at h
      · next d r hd => exact ⟨c, d, r, by rw [after?_eq_some_iff.1 hd], hc, h⟩
      · cases h
    · rintro ⟨q, q', r, hs, hq, hq'⟩
      obtain ⟨rfl, rfl⟩ := List.cons.inj hs
      have hafter : after? m (m ++ q' :: r) = some (q' :: r) := after?_eq_some_iff.2 rfl
      rw [hafter]
      exact ⟨hq, hq'⟩

/-! ### Lines that import a module -/

/-- A line that begins an import of a module. -/
def Mentions (m line : Text) : Prop :=
  ∃ indent lead q q' r, line = indent ++ keyword ++ (lead ++ q :: (m ++ q' :: r)) ∧
    (∀ c ∈ indent, isSpace c = true) ∧ Lead lead ∧ isQuote q = true ∧ isQuote q' = true

theorem afterKeyword?_eq_some_iff {line s : Text} :
    afterKeyword? line = some s ↔
      ∃ indent, line = indent ++ keyword ++ s ∧ ∀ c ∈ indent, isSpace c = true := by
  constructor
  · exact fun h => ⟨_, afterKeyword?_split h, fun c hc => List.mem_takeWhile_imp hc⟩
  · rintro ⟨indent, rfl, hi⟩
    have hk : ¬ isSpace 'i' = true := by decide
    rw [afterKeyword?, List.append_assoc, List.dropWhile_append_of_pos hi, keyword, List.cons_append,
      List.dropWhile_cons_of_neg hk]
    exact after?_eq_some_iff.2 rfl

/-- What follows `import` in a line that imports the module. -/
theorem names_iff {m s : Text} :
    (namesAfterFrom m s || namesModule m (s.dropWhile isBlank)) = true ↔
      ∃ lead q q' r, s = lead ++ q :: (m ++ q' :: r) ∧ Lead lead ∧ isQuote q = true ∧
        isQuote q' = true := by
  rw [Bool.or_eq_true]
  constructor
  · rintro (h | h)
    · cases s with
      | nil => cases h
      | cons c s =>
        simp only [namesAfterFrom, Bool.and_eq_true] at h
        obtain ⟨⟨hc, hfrom⟩, hnames⟩ := h
        obtain ⟨w, b, hw, hlast, hb⟩ := endsWithFrom_iff.1 hfrom
        obtain ⟨q, q', r, hr, hq, hq'⟩ := namesModule_iff.1 hnames
        have hplain : ∀ d ∈ w, endsSymbols d = false := by
          intro d hd
          have hmem : d ∈ s.takeWhile (!endsSymbols ·) := by
            rw [hw, List.append_assoc]
            exact List.mem_append_left _ hd
          simpa using List.mem_takeWhile_imp hmem
        refine ⟨c :: (w ++ fromWord ++ b), q, q', r, ?_, .symbols hc hplain hlast hb, hq, hq'⟩
        rw [← hr, ← hw, List.cons_append, List.takeWhile_append_dropWhile]
    · obtain ⟨q, q', r, hr, hq, hq'⟩ := namesModule_iff.1 h
      refine ⟨s.takeWhile isBlank, q, q', r, ?_, .direct (Element.blanks_takeWhile s), hq, hq'⟩
      rw [← hr, List.takeWhile_append_dropWhile]
  · rintro ⟨lead, q, q', r, rfl, hlead, hq, hq'⟩
    have hnames : namesModule m (q :: (m ++ q' :: r)) = true :=
      namesModule_iff.2 ⟨q, q', r, rfl, hq, hq'⟩
    have hnone := hlead.endsSymbols_eq_false
    cases hlead with
    | direct hb =>
      rw [Element.dropWhile_blanks hb (Element.isBlank_of_isQuote hq)]
      exact .inr hnames
    | @symbols c w b hc hw hlast hb =>
      have hpos : ∀ d ∈ w ++ fromWord ++ b, (!endsSymbols d) = true := by
        intro d hd
        simp [hnone d (List.mem_cons_of_mem c hd)]
      have hfrom : endsWithFrom (w ++ fromWord ++ b) = true := endsWithFrom_iff.2 ⟨w, b, rfl, hlast, hb⟩
      have htake : (w ++ fromWord ++ b ++ q :: (m ++ q' :: r)).takeWhile (!endsSymbols ·) =
          w ++ fromWord ++ b := by
        rw [List.takeWhile_append_of_pos hpos]
        simp [endsSymbols_of_isQuote hq]
      have hdrop : (w ++ fromWord ++ b ++ q :: (m ++ q' :: r)).dropWhile (!endsSymbols ·) =
          q :: (m ++ q' :: r) := by
        rw [List.dropWhile_append_of_pos hpos]
        simp [endsSymbols_of_isQuote hq]
      rw [List.cons_append, namesAfterFrom, htake, hdrop, hc, hfrom, hnames]
      exact .inl rfl

/-- **The recogniser accepts the lines that mention the module and no others.** -/
theorem lineImports_iff {m line : Text} : lineImports m line = true ↔ Mentions m line := by
  constructor
  · intro h
    unfold lineImports at h
    split at h
    · cases h
    · next s hs =>
      obtain ⟨indent, hline, hi⟩ := afterKeyword?_eq_some_iff.1 hs
      obtain ⟨lead, q, q', r, rfl, hlead, hq, hq'⟩ := names_iff.1 h
      exact ⟨indent, lead, q, q', r, hline, hi, hlead, hq, hq'⟩
  · rintro ⟨indent, lead, q, q', r, hline, hi, hlead, hq, hq'⟩
    rw [lineImports, afterKeyword?_eq_some_iff.2 ⟨indent, hline, hi⟩]
    exact names_iff.2 ⟨lead, q, q', r, rfl, hlead, hq, hq'⟩

/-- **A text imports a module exactly when some line of it mentions the module.** -/
theorem importsModule_iff {source m : Text} :
    importsModule source m = true ↔
      ∃ a line, source = a ++ line ∧ atLineStart a.getLast? = true ∧ Mentions m line := by
  simp only [importsModule, List.any_eq_true, mem_lineStarts_iff, lineImports_iff]
  constructor
  · rintro ⟨line, ⟨a, hs, ha⟩, hm⟩
    exact ⟨a, line, hs, ha, hm⟩
  · rintro ⟨a, line, hs, ha, hm⟩
    exact ⟨line, ⟨a, hs, ha⟩, hm⟩

/-! ### Modules with a pattern and modules without -/

section Patterns
variable {refusals : Refusals} {m : Text}

theorem withPattern_eq_ok_iff {α : Type} {result x : α} :
    withPattern refusals m result = .ok x ↔ refusals m = none ∧ result = x := by
  unfold withPattern
  split
  · next h => simp [h]
  · next h => simp [h]

theorem withPattern_eq_error_iff {α : Type} {result : α} {error : Error} :
    withPattern refusals m result = .error error ↔
      ∃ why, refusals m = some why ∧ invalidModule m why = error := by
  unfold withPattern
  split
  · next h => simp [h]
  · next h => simp [h]

theorem recognise_eq_ok_iff {source : Text} {b : Bool} :
    recognise refusals source m = .ok b ↔ refusals m = none ∧ importsModule source m = b :=
  withPattern_eq_ok_iff

theorem recognise_of_accepted {source : Text} (h : refusals m = none) :
    recognise refusals source m = .ok (importsModule source m) :=
  recognise_eq_ok_iff.2 ⟨h, rfl⟩

theorem recognise_eq_error_iff {source : Text} {error : Error} :
    recognise refusals source m = .error error ↔
      ∃ why, refusals m = some why ∧ invalidModule m why = error :=
  withPattern_eq_error_iff

/-- A module that has its pattern is recognised in any text that imports it. -/
theorem recognise_of_importsModule {source text : Text} {b : Bool}
    (h : recognise refusals source m = .ok b) (himports : importsModule text m = true) :
    recognise refusals text m = .ok true :=
  recognise_eq_ok_iff.2 ⟨(recognise_eq_ok_iff.1 h).1, himports⟩

/-! ### Adding an import -/

theorem add?_eq_none_iff {source : Text} {symbols : List Text} :
    add? source m symbols = none ↔ importsModule source m = true := by
  by_cases h : importsModule source m = true <;> simp [add?, h]

theorem add?_eq_some_iff {source text : Text} {symbols : List Text} :
    add? source m symbols = some text ↔ importsModule source m = false ∧
      (place source).insertLine (lineEnd source) (declaration m symbols) = text := by
  by_cases h : importsModule source m = true <;> simp [add?, h]

/-- An import fails to be added exactly where it fails to be recognised. -/
theorem add_eq_error_iff {source : Text} {symbols : List Text} {error : Error} :
    add refusals source m symbols = .error error ↔ recognise refusals source m = .error error := by
  rw [add, withPattern_eq_error_iff, recognise_eq_error_iff]

theorem add_eq_ok_none_iff {source : Text} {symbols : List Text} :
    add refusals source m symbols = .ok none ↔ recognise refusals source m = .ok true := by
  rw [add, withPattern_eq_ok_iff, add?_eq_none_iff, recognise_eq_ok_iff]

theorem add_eq_ok_some_iff {source text : Text} {symbols : List Text} :
    add refusals source m symbols = .ok (some text) ↔ recognise refusals source m = .ok false ∧
      (place source).insertLine (lineEnd source) (declaration m symbols) = text := by
  rw [add, withPattern_eq_ok_iff, add?_eq_some_iff, recognise_eq_ok_iff, and_assoc]

end Patterns
end SpinnerMarkup.Import
