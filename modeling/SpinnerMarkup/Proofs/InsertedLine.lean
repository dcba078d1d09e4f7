import SpinnerMarkup.Proofs.NeededImport
import SpinnerMarkup.Proofs.PrologueLines
import SpinnerMarkup.Proofs.Swapping

/-! An import is added on a line of its own.

The place for a declaration is found in three ways: after the line of the last import statement, below
the prologue, or at the end of a text whose last line is not ended. `place_between` says that each of
them is a place between lines, so no line of the text is cut (`uncut`) and the declaration begins a
line. There the module is recognised, whatever the names beside it, and so it is not added again
(`add_puts_line`). -/
namespace SpinnerMarkup.Import

open Text

/-! ### The three places -/

/-- A text without statements has plain pieces only. -/
theorem dropWhile_isPlain_eq_nil_iff {s : Text} :
    (statementPattern.scan s).reverse.dropWhile isPlain = [] ↔ statementPattern.occurrences s = [] := by
  have hplain : ∀ p : Piece Text, isPlain p = true ↔ p.found? = none := by
    intro p
    cases p <;> simp [isPlain, Piece.found?]
  simp [Pattern.occurrences, hplain]

/-- Without a statement the place is below the prologue. -/
theorem place_of_no_statement {s : Text} (h : statementPattern.occurrences s = []) :
    (place s).before = prologue s ∧ s = prologue s ++ (place s).after ∧
      Lines (prologue s) (place s).after := by
  have hplace : place s = ⟨prologue s, s.drop (prologue s).length⟩ := by
    rw [place, afterLastStatement?]
    simp only [dropWhile_isPlain_eq_nil_iff.2 h]
  obtain ⟨r, hs, hlines⟩ := lines_prologue s
  have hafter : s.drop (prologue s).length = r := by
    have hdrop := congrArg (List.drop (prologue s).length) hs
    rwa [List.drop_left] at hdrop
  rw [hplace]
  exact ⟨rfl, hafter ▸ hs, hafter ▸ hlines⟩

/-- A text with statements has a last one. -/
theorem exists_last_statement {s : Text} (h : statementPattern.occurrences s ≠ []) :
    ∃ ps t qs, statementPattern.scan s = ps ++ .found t :: qs ∧ ∀ p ∈ qs, isPlain p = true := by
  obtain ⟨p, rest, hlast⟩ := List.exists_cons_of_ne_nil (mt dropWhile_isPlain_eq_nil_iff.1 h)
  have hp := List.head?_dropWhile_not isPlain (statementPattern.scan s).reverse
  have hsplit := List.takeWhile_append_dropWhile (p := isPlain) (l := (statementPattern.scan s).reverse)
  rw [hlast] at hp hsplit
  cases p with
  | plain c => simp [isPlain] at hp
  | found t =>
    refine ⟨rest.reverse, t, ((statementPattern.scan s).reverse.takeWhile isPlain).reverse, ?_, ?_⟩
    · simpa using congrArg List.reverse hsplit.symm
    · exact fun p hp => List.mem_takeWhile_imp (List.mem_reverse.1 hp)

/-- Otherwise it is below the line that the last statement ends on. -/
theorem place_of_scan_eq {s t : Text} {ps qs : List (Piece Text)}
    (h : statementPattern.scan s = ps ++ .found t :: qs) (hqs : ∀ p ∈ qs, isPlain p = true) :
    place s = ⟨ps.flatMap statementPattern.pieceSource ++ t ++
        (afterLine (qs.flatMap statementPattern.pieceSource)).before,
      (afterLine (qs.flatMap statementPattern.pieceSource)).after⟩ := by
  have hqs' : ∀ p ∈ qs.reverse, isPlain p = true := fun p hp => hqs p (List.mem_reverse.1 hp)
  have hfound : ¬ isPlain (.found t) = true := by simp [isPlain]
  have hlast : afterLastStatement? s = some ⟨ps.flatMap statementPattern.pieceSource ++ t,
      qs.flatMap statementPattern.pieceSource⟩ := by
    simp only [afterLastStatement?, h, List.reverse_append, List.reverse_cons, List.append_assoc,
      List.singleton_append, List.dropWhile_append_of_pos hqs', List.takeWhile_append_of_pos hqs',
      List.dropWhile_cons_of_neg hfound, List.takeWhile_cons_of_neg hfound]
    simp [Pattern.pieceSource, statementPattern]
  rw [place, hlast]

/-- The last statement of a text ends after `front`. -/
def LastStatementEnds (source front : Text) : Prop :=
  ∃ ps t qs, statementPattern.scan source = ps ++ .found t :: qs ∧ (∀ p ∈ qs, isPlain p = true) ∧
    front = ps.flatMap statementPattern.pieceSource ++ t

/-! ### Places between lines -/

/-- A place between two lines of a text, or at one of its ends. -/
def Between (a b : Text) : Prop := a = [] ∨ a.getLast? = some '\n' ∨ b = []

theorem Between.append_left {a b : Text} (h : a.getLast? = some '\n' ∨ b = []) (w : Text) :
    Between (w ++ a) b := by
  rcases h with hfeed | hnil
  · exact .inr (.inl (by simp [List.getLast?_append, hfeed]))
  · exact .inr (.inr hnil)

theorem afterLine_append {x : Text} (hx : '\n' ∉ x) (r : Text) :
    afterLine (x ++ '\n' :: r) = ⟨x ++ ['\n'], r⟩ := by
  have hx' : ∀ c ∈ x, (c != '\n') = true := fun c hc => by
    simpa using fun heq : c = '\n' => hx (heq ▸ hc)
  rw [afterLine, dropWhile_stop hx' (by simp), takeWhile_stop hx' (by simp)]

theorem afterLine_ends (s : Text) :
    (afterLine s).before.getLast? = some '\n' ∨ (afterLine s).after = [] := by
  unfold afterLine
  split
  · exact .inr rfl
  · next c r h =>
    rw [(dropWhile_ne_split h).1]
    exact .inl (by simp)

/-- **A declaration goes between two lines.** -/
theorem place_between (s : Text) : Between (place s).before (place s).after := by
  by_cases h : statementPattern.occurrences s = []
  · obtain ⟨hbefore, -, hlines⟩ := place_of_no_statement h
    rw [hbefore]
    exact hlines.ends
  · obtain ⟨ps, t, qs, hscan, hqs⟩ := exists_last_statement h
    rw [place_of_scan_eq hscan hqs]
    exact .append_left (afterLine_ends _) _

/-- A part of a text that holds a line feed at most at its end lies before a place between lines or
after it. -/
theorem Between.uncut {a b x l y : Text} (h : Between a b) (hs : a ++ b = x ++ l ++ y)
    (hl : '\n' ∉ l.dropLast) : x ++ l <+: a ∨ l ++ y <:+ b := by
  rw [List.append_assoc] at hs
  rcases List.append_eq_append_iff.1 hs with ⟨c, -, rfl⟩ | ⟨c, rfl, hrest⟩
  · exact .inr ⟨c, rfl⟩
  · rcases List.append_eq_append_iff.1 hrest with ⟨d, rfl, -⟩ | ⟨d, rfl, rfl⟩
    · exact .inl ⟨d, by simp⟩
    · -- the place is inside the part; it can only be at one of its ends
      cases d with
      | nil => exact .inl (by simp)
      | cons z d =>
        cases hc : c.getLast? with
        | none =>
          obtain rfl := List.getLast?_eq_none_iff.1 hc
          exact .inr (List.suffix_refl _)
        | some k =>
          have hlast : (x ++ c).getLast? = some k := by simp [List.getLast?_append, hc]
          have hk : k = '\n' := by
            rcases h with hnil | hfeed | hnil
            · rw [hnil] at hlast
              cases hlast
            · rw [hlast] at hfeed
              exact Option.some.inj hfeed
            · cases hnil
          have hmem : '\n' ∈ c := hk ▸ List.mem_of_getLast? hc
          rw [List.dropLast_append_of_ne_nil (List.cons_ne_nil z d)] at hl
          exact absurd (List.mem_append_left _ hmem) hl

/-! ### The inserted line -/

/-- A line put into a text on a line of its own. -/
structure PutsLine (source line text a b eol : Text) : Prop where
  split : source = a ++ b
  text : text = a ++ separator a eol ++ line ++ eol ++ b
  between : a = [] ∨ a.getLast? = some '\n' ∨ b = []
  crlf : ['\r', '\n'] <:+: source → eol = ['\r', '\n']
  feed : ¬ ['\r', '\n'] <:+: source → eol = ['\n']
  /-- No line of the source is split: each, with its line end, lies before the new line or after it. -/
  unsplit : ∀ x l y, source = x ++ l ++ y → '\n' ∉ l.dropLast → x ++ l <+: a ∨ l ++ y <:+ b

theorem lineEnd_of_crlf {s : Text} (h : ['\r', '\n'] <:+: s) : lineEnd s = ['\r', '\n'] :=
  if_pos (contains_eq_true_iff.2 h)

theorem lineEnd_of_no_crlf {s : Text} (h : ¬ ['\r', '\n'] <:+: s) : lineEnd s = ['\n'] :=
  if_neg fun hc => h (contains_eq_true_iff.1 hc)

theorem putsLine_insertLine (s line : Text) :
    PutsLine s line ((place s).insertLine (lineEnd s) line) (place s).before (place s).after
      (lineEnd s) := by
  have hbetween := place_between s
  refine ⟨(place_split s).symm, ?_, hbetween, lineEnd_of_crlf, lineEnd_of_no_crlf, ?_⟩
  · rw [insertLine_eq]
    simp
  · intro x l y hs hl
    exact hbetween.uncut ((place_split s).trans hs) hl

/-- **An import that is missing is added on a line of its own, where it is recognised.** Adding it fails
only for a module without a pattern. -/
theorem add_puts_line (refusals : Refusals) (source m : Text) (symbols : List Text)
    (h : ∀ t ∈ symbols, ';' ∉ t ∧ singleQuote ∉ t ∧ doubleQuote ∉ t) :
    (∀ error, add refusals source m symbols = .error error ↔
        ∃ why, refusals m = some why ∧ invalidModule m why = error) ∧
      (add refusals source m symbols = .ok none ↔ recognise refusals source m = .ok true) ∧
      (recognise refusals source m = .ok false →
        ∃ text a b eol, add refusals source m symbols = .ok (some text) ∧
          PutsLine source (declaration m symbols) text a b eol ∧
          recognise refusals text m = .ok true ∧
          ∀ symbols', add refusals text m symbols' = .ok none) := by
  refine ⟨fun _ => add_eq_error_iff.trans recognise_eq_error_iff, add_eq_ok_none_iff, fun hmissing => ?_⟩
  have hplain : ∀ t ∈ symbols, ∀ c ∈ t, endsSymbols c = false := by
    intro t ht c hc
    obtain ⟨hsemicolon, hsingle, hdouble⟩ := h t ht
    have h₁ : c ≠ ';' := fun heq => hsemicolon (heq ▸ hc)
    have h₂ : c ≠ singleQuote := fun heq => hsingle (heq ▸ hc)
    have h₃ : c ≠ doubleQuote := fun heq => hdouble (heq ▸ hc)
    simp [endsSymbols, isQuote, h₁, h₂, h₃]
  have himported := recognise_of_importsModule hmissing
    (importsModule_insertLine_of_plain (place source) source m hplain)
  exact ⟨_, _, _, _, add_eq_ok_some_iff.2 ⟨hmissing, rfl⟩, putsLine_insertLine source _, himported,
    fun _ => add_eq_ok_none_iff.2 himported⟩

/-- A comment and a directive that ends the text without a line end. -/
def directiveAtEnd : Text := "// a page\r\n'use client'".toList

theorem directiveAtEnd_ended :
    (∀ t ∈ ["A".toList, "B, C".toList], ';' ∉ t ∧ singleQuote ∉ t ∧ doubleQuote ∉ t) ∧
      recognise noRefusals directiveAtEnd "m".toList = .ok false ∧
      ∃ text a b eol,
        add noRefusals directiveAtEnd "m".toList ["A".toList, "B, C".toList] = .ok (some text) ∧
        text = "// a page\r\n'use client'\r\nimport \x7b A, B, C \x7d from \"m\";\r\n".toList ∧
        PutsLine directiveAtEnd (declaration "m".toList ["A".toList, "B, C".toList]) text a b eol := by
  have hplain : ∀ t ∈ ["A".toList, "B, C".toList], ';' ∉ t ∧ singleQuote ∉ t ∧ doubleQuote ∉ t := by
    decide +kernel
  have hmissing : recognise noRefusals directiveAtEnd "m".toList = .ok false :=
    recognise_eq_ok_iff.2 ⟨rfl, by decide +kernel⟩
  obtain ⟨text, a, b, eol, hadd, hputs, -, -⟩ :=
    (add_puts_line _ directiveAtEnd "m".toList _ hplain).2.2 hmissing
  have htext : (place directiveAtEnd).insertLine (lineEnd directiveAtEnd)
      (declaration "m".toList ["A".toList, "B, C".toList]) =
        "// a page\r\n'use client'\r\nimport \x7b A, B, C \x7d from \"m\";\r\n".toList := by
    decide +kernel
  exact ⟨hplain, hmissing, text, a, b, eol, hadd, (add_eq_ok_some_iff.1 hadd).2.symm.trans htext, hputs⟩

end SpinnerMarkup.Import
