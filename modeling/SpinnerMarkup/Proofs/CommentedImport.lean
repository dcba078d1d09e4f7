import SpinnerMarkup.Proofs.InsertedLine
import SpinnerMarkup.Proofs.StatementMention

/-! Imports inside a block comment at the top of a text.

Both recognisers look for `import` at the start of a line and do not mind comments. So a comment counts
exactly as far as its own lines do: a line that begins inside it may import a module
(`importsModule_comment_iff`), and a statement inside it draws the next declaration into the comment, unless it
is on the comment's last line (`comment_above_iff`). A comment without either is passed over. -/
namespace SpinnerMarkup.Import

open Text

/-- A block comment. -/
def blockComment (c : Text) : Text := ['/', '*'] ++ c ++ ['*', '/']

/-! ### Lines inside a comment -/

theorem tails_append (s t : Text) :
    lineStarts.tails (s ++ t) = (lineStarts.tails s).map (· ++ t) ++ lineStarts.tails t := by
  induction s with
  | nil => rfl
  | cons c s ih =>
    by_cases hc : c = '\n' <;> simp [lineStarts.tails, hc, ih]

/-- The lines of a text that a comment begins: its first, those inside the comment, and those below. -/
theorem lineStarts_comment (c rest : Text) :
    lineStarts (blockComment c ++ '\n' :: rest) = (blockComment c ++ '\n' :: rest) ::
      ((lineStarts.tails c).map (· ++ (['*', '/'] ++ '\n' :: rest)) ++ lineStarts rest) := by
  have hs : blockComment c ++ '\n' :: rest = ['/', '*'] ++ (c ++ (['*', '/'] ++ '\n' :: rest)) := by
    simp [blockComment]
  rw [hs, lineStarts, tails_append, tails_append, tails_append]
  simp [lineStarts, lineStarts.tails]

theorem not_mentions_slash (m s : Text) : ¬ Mentions m ('/' :: s) := by
  intro h
  obtain ⟨indent, lead, q, q', r, hs, hindent, -⟩ := h
  cases indent with
  | nil => exact absurd (List.cons.inj hs).1 (by decide)
  | cons c indent =>
    obtain ⟨rfl, -⟩ := List.cons.inj hs
    exact absurd (hindent '/' (List.mem_cons_self ..)) (by decide)

/-- A line that begins inside the comment imports the module. -/
def MentionedInside (m c rest : Text) : Prop :=
  ∃ a l, c = a ++ '\n' :: l ∧ Mentions m (l ++ (['*', '/'] ++ '\n' :: rest))

/-- **The lines inside a comment are looked at like those below it.** -/
theorem importsModule_comment_iff {m c rest : Text} :
    importsModule (blockComment c ++ '\n' :: rest) m = true ↔
      MentionedInside m c rest ∨ importsModule rest m = true := by
  have hfirst : ¬ lineImports m (blockComment c ++ '\n' :: rest) = true :=
    fun h => not_mentions_slash m _ (lineImports_iff.1 h)
  rw [importsModule, lineStarts_comment, List.any_cons, Bool.or_eq_true, or_iff_right hfirst, List.any_append,
    Bool.or_eq_true, importsModule]
  refine or_congr_left ?_
  simp only [List.any_map, List.any_eq_true, Function.comp, mem_tails_iff, lineImports_iff]
  constructor
  · rintro ⟨l, ⟨a, hc⟩, hl⟩
    exact ⟨a, l, hc, hl⟩
  · rintro ⟨a, l, hc, hl⟩
    exact ⟨l, ⟨a, hc⟩, hl⟩

/-! ### The place and the comment -/

/-- The rest of a line reaches over a text that it begins with and that does not end a line, unless the
line ends within it. -/
theorem prefix_afterLine_iff {x r : Text} (hlast : x.getLast? ≠ some '\n') :
    x <+: (afterLine (x ++ '\n' :: r)).before ↔ '\n' ∉ x := by
  constructor
  · intro hp hfeed
    obtain ⟨y, z, rfl, hy⟩ := List.eq_append_cons_of_mem hfeed
    have hs : y ++ '\n' :: z ++ '\n' :: r = y ++ '\n' :: (z ++ '\n' :: r) := by simp
    rw [hs, afterLine_append hy, List.prefix_append_right_inj, List.cons_prefix_cons, List.prefix_nil] at hp
    rw [hp.2] at hlast
    simp at hlast
  · intro hfeed
    rw [afterLine_append hfeed]
    exact List.prefix_append x _

/-- A place after the line on which `e` ends lies below `w`, unless a line ends between them. -/
theorem prefix_append_afterLine_iff {e q w r : Text} (hs : e ++ q = w ++ '\n' :: r)
    (hlast : w.getLast? ≠ some '\n') :
    w <+: e ++ (afterLine q).before ↔ ∀ x, w = e ++ x → '\n' ∉ x := by
  rcases List.append_eq_append_iff.1 hs with ⟨x, rfl, rfl⟩ | ⟨y, rfl, -⟩
  · have hx : x.getLast? ≠ some '\n' := by
      intro h
      exact hlast (by simp [List.getLast?_append, h])
    rw [List.prefix_append_right_inj, prefix_afterLine_iff hx]
    simp
  · refine iff_of_true ?_ fun x hx => ?_
    · rw [List.append_assoc]
      exact List.prefix_append w _
    · obtain ⟨-, rfl⟩ : y = [] ∧ x = [] := by simpa using hx
      exact List.not_mem_nil

/-- A comment up to its first close mark, with the end of its line, is a prologue line. -/
theorem isPrologueLine_comment {c : Text} (hc : ¬ ['*', '/'] <:+: c) (r : Text) :
    IsPrologueLine (blockComment c ++ ['\n']) r := by
  refine .comment (b := []) (by simp [Spaces]) (.feed (b := []) (by simp [Spaces])) fun y hy hne => ?_
  intro hclose
  obtain ⟨z, u, hs, -⟩ := hclose
  -- the close mark is in `y`, or straddles its end
  cases y with
  | nil => exact hne rfl
  | cons d y =>
    cases y with
    | nil => simp at hs
    | cons e y =>
      obtain ⟨rfl, rfl, -⟩ : d = '*' ∧ e = '/' ∧ _ := by simpa using hs
      exact hc (List.IsInfix.trans ⟨[], y, rfl⟩ hy.isInfix)

/-- **A declaration goes below the comment, unless the last statement ends inside it and not on its last
line.** -/
theorem comment_above_iff {c rest : Text} (hc : ¬ ['*', '/'] <:+: c) :
    blockComment c <+: (place (blockComment c ++ '\n' :: rest)).before ↔
      ∀ front x, LastStatementEnds (blockComment c ++ '\n' :: rest) front → blockComment c = front ++ x →
        '\n' ∉ x := by
  have hlast : (blockComment c).getLast? ≠ some '\n' := by
    rw [blockComment, List.getLast?_append]
    simp
  -- the place below the last statement, wherever it ends
  have hplace : ∀ {ps t qs}, statementPattern.scan (blockComment c ++ '\n' :: rest) = ps ++ .found t :: qs →
      (∀ p ∈ qs, isPlain p = true) →
      (blockComment c <+: (place (blockComment c ++ '\n' :: rest)).before ↔
        ∀ x, blockComment c = ps.flatMap statementPattern.pieceSource ++ t ++ x → '\n' ∉ x) := by
    intro ps t qs hscan hqs
    obtain ⟨hsource, -⟩ := statement_of_scan_eq hscan
    rw [place_of_scan_eq hscan hqs]
    exact prefix_append_afterLine_iff (by rw [hsource, List.append_assoc]) hlast
  constructor
  · intro h front x hends
    obtain ⟨ps, t, qs, hscan, hqs, rfl⟩ := hends
    exact (hplace hscan hqs).1 h x
  · intro h
    by_cases hnone : statementPattern.occurrences (blockComment c ++ '\n' :: rest) = []
    · rw [(place_of_no_statement hnone).1, prefix_prologue_iff]
      have hline : Lines (blockComment c ++ ['\n'] ++ []) rest := .cons (isPrologueLine_comment hc _) .nil
      exact ⟨_, rest, by simp, hline, ['\n'], by simp⟩
    · obtain ⟨ps, t, qs, hscan, hqs⟩ := exists_last_statement hnone
      exact (hplace hscan hqs).2 fun x => h _ x ⟨ps, t, qs, hscan, hqs, rfl⟩

/-! ### Comments that are passed over -/

/-- **A comment at the top of a text is passed over unless its own lines hold imports**: for what the text
imports, lines that begin inside it; for the place of the next import, a last statement that ends inside it. -/
theorem comment_inert_iff (refusals : Refusals) (source c rest m : Text) (symbols : List Text)
    (hc : ¬ ['*', '/'] <:+: c) (hsource : source = blockComment c ++ '\n' :: rest) :
    (recognise refusals source m = recognise refusals rest m ↔
        (refusals m = none → MentionedInside m c rest → recognise refusals rest m = .ok true)) ∧
      ∀ text, add refusals source m symbols = .ok (some text) →
        PutsLine source (declaration m symbols) text (place source).before (place source).after
            (lineEnd source) ∧
          (blockComment c <+: (place source).before ↔
            ∀ front x, LastStatementEnds source front → blockComment c = front ++ x → '\n' ∉ x) := by
  subst hsource
  refine ⟨?_, fun text hadd => ?_⟩
  · cases hm : refusals m with
    | some why => simp [recognise, withPattern, hm]
    | none =>
      rw [recognise_of_accepted hm, recognise_of_accepted hm, Except.ok.injEq, Except.ok.injEq,
        Bool.eq_iff_iff, importsModule_comment_iff, or_iff_right_iff_imp, forall_prop_of_true rfl]
  · obtain ⟨-, rfl⟩ := add_eq_ok_some_iff.1 hadd
    exact ⟨putsLine_insertLine _ _, comment_above_iff hc⟩

/-- A comment with an import on its last line. -/
def importBeforeClose : Text := " was\n\timport a from 'a'; ".toList

/-- A call below it. -/
def callBelowImport : Text := blockComment importBeforeClose ++ "\nf();\n".toList

theorem importBeforeClose_passed :
    ¬ ['*', '/'] <:+: importBeforeClose ∧
      recognise noRefusals callBelowImport defaultModule = .ok false ∧
      (MentionedInside defaultModule importBeforeClose "f();\n".toList →
        recognise noRefusals "f();\n".toList defaultModule = .ok true) ∧
      ∃ text, add noRefusals callBelowImport defaultModule ["A".toList] = .ok (some text) ∧
        PutsLine callBelowImport (declaration defaultModule ["A".toList]) text
          (blockComment importBeforeClose ++ ['\n']) "f();\n".toList ['\n'] ∧
        ∀ front x, LastStatementEnds callBelowImport front → blockComment importBeforeClose = front ++ x →
          '\n' ∉ x := by
  have hc : ¬ ['*', '/'] <:+: importBeforeClose := by decide +kernel
  have hmissing : recognise noRefusals callBelowImport defaultModule = .ok false := by decide +kernel
  have hbelow : recognise noRefusals "f();\n".toList defaultModule = .ok false := by decide +kernel
  have hplace : place callBelowImport =
      ⟨blockComment importBeforeClose ++ ['\n'], "f();\n".toList⟩ := by decide +kernel
  have hfeed : lineEnd callBelowImport = ['\n'] := by decide +kernel
  have hadd : add noRefusals callBelowImport defaultModule ["A".toList] =
      .ok (some (blockComment importBeforeClose ++ ['\n'] ++ declaration defaultModule ["A".toList] ++
        "\nf();\n".toList)) := by decide +kernel
  obtain ⟨himports, hplaced⟩ := comment_inert_iff noRefusals callBelowImport importBeforeClose
    "f();\n".toList defaultModule ["A".toList] hc rfl
  obtain ⟨hputs, habove⟩ := hplaced _ hadd
  rw [hplace, hfeed] at hputs
  rw [hplace] at habove
  exact ⟨hc, hmissing, himports.1 (hmissing.trans hbelow.symm) rfl, _, hadd, hputs,
    habove.1 (List.prefix_append _ _)⟩

/-- A comment that an import is alone on a line of. -/
def importInside : Text := "\nimport a from 'a';\n".toList

/-- **An import inside a comment counts, and draws the next one into the comment.** -/
theorem importInside_counts :
    ¬ ['*', '/'] <:+: importInside ∧
      recognise noRefusals (blockComment importInside ++ "\nf();\n".toList) ['a'] = .ok true ∧
      recognise noRefusals "f();\n".toList ['a'] = .ok false ∧
      add noRefusals (blockComment importInside ++ "\nf();\n".toList) defaultModule ["A".toList] =
        .ok (some ("/*\nimport a from 'a';\n".toList ++ declaration defaultModule ["A".toList] ++
          "\n*/\nf();\n".toList)) ∧
      ¬ blockComment importInside <+: (place (blockComment importInside ++ "\nf();\n".toList)).before :=
  ⟨by decide +kernel, by decide +kernel, by decide +kernel, by decide +kernel, by decide +kernel⟩

end SpinnerMarkup.Import
