import SpinnerMarkup.Proofs.InsertedLine

/-! When a directive stays above an inserted import.

A text without import statements gets its first one below the prologue, so a directive stays above it
when a line of the prologue holds it (`prefix_prologue_iff_onPrologueLine`). Where whole prologue lines lead
to the directive, that line is its own, and it is one exactly when nothing but spaces and a semicolon
follows the directive (`onPrologueLine_iff_directiveRest`). -/
namespace SpinnerMarkup.Import

open Text

/-- Prologue lines lead to a line that holds `part`. -/
def OnPrologueLine (lead part rest : Text) : Prop :=
  ∃ a x y r, lead = a ++ x ∧ rest = y ++ r ∧ Lines a (x ++ part ++ y ++ r) ∧
    IsPrologueLine (x ++ part ++ y) r

/-- What lies within one line lies in one of the lines. -/
theorem Lines.onPrologueLine {lead part t r : Text} (h : Lines (lead ++ part ++ t) r)
    (hfeed : '\n' ∉ part) (hne : part ≠ []) : OnPrologueLine lead part (t ++ r) := by
  generalize hs : lead ++ part ++ t = s at h
  induction h generalizing lead with
  | nil => simp [hne] at hs
  | @cons l a r hl hlines ih =>
    have hbetween : Between l a := by
      rcases hl.ends with hlast | hnil
      · exact .inr (.inl hlast)
      · exact .inr (.inr (List.append_eq_nil_iff.1 hnil).1)
    have huncut := hbetween.uncut hs.symm fun hmem => hfeed (List.dropLast_subset part hmem)
    rcases huncut with ⟨y, rfl⟩ | ⟨x, rfl⟩
    · obtain rfl : t = y ++ a := by simpa using hs
      exact ⟨[], lead, y, a ++ r, rfl, List.append_assoc y a r, .nil, hl⟩
    · obtain rfl : lead = l ++ x := by
        have hs' : lead ++ (part ++ t) = l ++ x ++ (part ++ t) := by simpa using hs
        exact List.append_cancel_right hs'
      obtain ⟨a', x', y, r', rfl, hrest, hlines', hline⟩ := ih (List.append_assoc x part t)
      refine ⟨l ++ a', x', y, r', (List.append_assoc l a' x').symm, hrest, .cons ?_ hlines', hline⟩
      have hsplit : a' ++ (x' ++ part ++ y ++ r') = a' ++ x' ++ (part ++ t) ++ r := by
        simp only [List.append_assoc, ← hrest]
      rwa [hsplit]

/-- **The prologue takes in what one of its lines holds.** -/
theorem prefix_prologue_iff_onPrologueLine {lead part rest : Text} (hfeed : '\n' ∉ part) (hne : part ≠ []) :
    lead ++ part <+: prologue (lead ++ part ++ rest) ↔ OnPrologueLine lead part rest := by
  rw [prefix_prologue_iff]
  constructor
  · rintro ⟨a, r, hs, hlines, t, rfl⟩
    obtain rfl : rest = t ++ r := by simpa using hs
    exact hlines.onPrologueLine hfeed hne
  · rintro ⟨a, x, y, r, rfl, rfl, hlines, hline⟩
    have hlast : Lines (x ++ part ++ y) r := by simpa using Lines.cons (a := []) hline .nil
    have hall : Lines (a ++ (x ++ part ++ y)) r := hlines.append (by simpa using hlast)
    exact ⟨_, r, by simp, hall, y, by simp⟩

theorem IsDirective.ne_nil {d : Text} (h : IsDirective d) : d ≠ [] := by
  obtain ⟨q, t, rfl, -⟩ := h.eq_cons
  exact List.cons_ne_nil q t

/-- **A directive that lines and spaces lead to is in the prologue when its own line is one.** -/
theorem onPrologueLine_iff_directiveRest {a b d rest : Text} (hd : IsDirective d)
    (hlines : Lines a (b ++ d ++ rest)) (hb : Spaces b) :
    OnPrologueLine (a ++ b) d rest ↔ ∃ u r, rest = u ++ r ∧ IsDirectiveRest u r := by
  constructor
  · intro h
    have hall := (prefix_prologue_iff_onPrologueLine hd.not_mem_feed hd.ne_nil).2 h
    have hs : a ++ b ++ d ++ rest = a ++ (b ++ d ++ rest) := by simp
    -- the lines before it are read first, whatever lines the text was cut into
    rw [hs, hlines.prologue_append, List.append_assoc, List.prefix_append_right_inj] at hall
    obtain ⟨a', x, y, r, rfl, rfl, -, hline⟩ :=
      (prefix_prologue_iff_onPrologueLine hd.not_mem_feed hd.ne_nil).1 hall
    have hx : Spaces x := fun c hc => hb c (List.mem_append_right a' hc)
    exact ⟨y, r, rfl, hline.directiveRest hx hd⟩
  · intro h
    obtain ⟨u, r, rfl, hu⟩ := h
    exact ⟨a, b, u, r, rfl, rfl, by simpa using hlines, .directive hb hd hu⟩

/-! ### Above the declaration -/

/-- **A first import goes below a directive exactly when a prologue line holds the directive**, and into it
never. Where whole lines and spaces lead to the directive, what follows on its line decides. -/
theorem directive_above_iff (refusals : Refusals) (source lead d rest m text : Text)
    (symbols : List Text) (hsource : source = lead ++ d ++ rest) (hd : IsDirective d)
    (hnone : statementPattern.occurrences source = [])
    (hadd : add refusals source m symbols = .ok (some text)) :
    PutsLine source (declaration m symbols) text (place source).before (place source).after
        (lineEnd source) ∧
      (lead ++ d <+: (place source).before ∨ d ++ rest <:+ (place source).after) ∧
      (lead ++ d <+: (place source).before ↔ OnPrologueLine lead d rest) ∧
      ∀ a b, lead = a ++ b → Lines a (b ++ d ++ rest) → Spaces b →
        (lead ++ d <+: (place source).before ↔ ∃ u r, rest = u ++ r ∧ IsDirectiveRest u r) := by
  obtain ⟨-, rfl⟩ := add_eq_ok_some_iff.1 hadd
  have hputs := putsLine_insertLine source (declaration m symbols)
  have hwhole : '\n' ∉ d.dropLast := fun hmem => hd.not_mem_feed (List.dropLast_subset d hmem)
  have habove : lead ++ d <+: (place source).before ↔ OnPrologueLine lead d rest := by
    rw [(place_of_no_statement hnone).1, hsource]
    exact prefix_prologue_iff_onPrologueLine hd.not_mem_feed hd.ne_nil
  refine ⟨hputs, hputs.unsplit lead d rest hsource hwhole, habove, fun a b hlead hlines hb => ?_⟩
  rw [habove, hlead]
  exact onPrologueLine_iff_directiveRest hd hlines hb

theorem isDirective_useClient : IsDirective "\"use client\"".toList :=
  ⟨doubleQuote, "client".toList, by decide, by decide, by decide, rfl⟩

/-- A comment and a directive with a semicolon apart from it. -/
def spacedDirective : Text := "// page\r\n\t\"use client\" ;\r\nf();\r\n".toList

theorem spacedDirective_stays :
    IsDirective "\"use client\"".toList ∧ statementPattern.occurrences spacedDirective = [] ∧
      ∃ text, add noRefusals spacedDirective defaultModule ["A".toList] = .ok (some text) ∧
        PutsLine spacedDirective (declaration defaultModule ["A".toList]) text
          "// page\r\n\t\"use client\" ;\r\n".toList "f();\r\n".toList ['\r', '\n'] ∧
        "// page\r\n\t\"use client\"".toList <+: (place spacedDirective).before := by
  have hnone : statementPattern.occurrences spacedDirective = [] := by decide +kernel
  have hplace : place spacedDirective =
      ⟨"// page\r\n\t\"use client\" ;\r\n".toList, "f();\r\n".toList⟩ := by decide +kernel
  have hcrlf : lineEnd spacedDirective = ['\r', '\n'] := by decide +kernel
  have hadd : add noRefusals spacedDirective defaultModule ["A".toList] =
      .ok (some ("// page\r\n\t\"use client\" ;\r\n".toList ++
        declaration defaultModule ["A".toList] ++ "\r\nf();\r\n".toList)) := by decide +kernel
  obtain ⟨hputs, -, -, hfirst⟩ := directive_above_iff _ spacedDirective "// page\r\n\t".toList
    "\"use client\"".toList " ;\r\nf();\r\n".toList defaultModule _ ["A".toList] (by decide +kernel)
    isDirective_useClient hnone hadd
  have hremark : Lines "// page\r\n".toList "\t\"use client\" ;\r\nf();\r\n".toList :=
    .cons (a := []) (.remark (b := []) (w := " page\r".toList) (by simp [Spaces]) (by decide)) .nil
  have hrest : IsDirectiveRest " ;\r\n".toList "f();\r\n".toList :=
    .ended (b := [' ']) (by simp [Spaces, isSpace]) (.inl (.crlf (b := []) (by simp [Spaces])))
  have habove := (hfirst "// page\r\n".toList ['\t'] rfl hremark (by simp [Spaces, isSpace])).2
    ⟨_, _, rfl, hrest⟩
  rw [hplace, hcrlf] at hputs
  exact ⟨isDirective_useClient, hnone, _, hadd, hputs, habove⟩

/-- A directive with a remark on its line. -/
def remarkedDirective : Text := "\"use client\"; // page\nf();\n".toList

/-- **A directive with a remark on its line gets the import above it.** -/
theorem remarkedDirective_below :
    IsDirective "\"use client\"".toList ∧
      remarkedDirective = "\"use client\"".toList ++ "; // page\nf();\n".toList ∧
      statementPattern.occurrences remarkedDirective = [] ∧
      add noRefusals remarkedDirective defaultModule ["A".toList] =
        .ok (some (declaration defaultModule ["A".toList] ++ ['\n'] ++ remarkedDirective)) ∧
      ¬ "\"use client\"".toList <+: (place remarkedDirective).before :=
  ⟨isDirective_useClient, by decide +kernel, by decide +kernel, by decide +kernel, by decide +kernel⟩

end SpinnerMarkup.Import
