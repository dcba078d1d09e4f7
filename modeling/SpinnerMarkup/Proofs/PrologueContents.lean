import SpinnerMarkup.Proofs.InsertedLine

/-! What stands above an inserted import.

`Codeless` is the grammar of text without code: blanks, comments, a block comment ending at its first
close mark, and directives. A prologue line reads a block comment up to the first close mark *that ends a
line*, so a line may go on after its comment is over. `codeless_iff_of_lines` says that this is the only
way for code to get in: lines are without code exactly when all that follows such a comment is. -/
namespace SpinnerMarkup.Import

open Text
open Element (isQuote_of_isBlank)

/-! ### Text without code -/

/-- Blanks, comments and directives. -/
inductive Codeless : Text → Prop where
  | nil : Codeless []
  | blank {c : Char} {s : Text} : isBlank c = true → Codeless s → Codeless (c :: s)
  | remark {w s : Text} : '\n' ∉ w → Codeless s → Codeless ('/' :: '/' :: (w ++ '\n' :: s))
  | lastRemark {w : Text} : '\n' ∉ w → Codeless ('/' :: '/' :: w)
  | comment {w s : Text} : ¬ ['*', '/'] <:+: w → Codeless s →
      Codeless ('/' :: '*' :: (w ++ '*' :: '/' :: s))
  | directive {d s : Text} : IsDirective d → Codeless s → Codeless (d ++ s)
  | ended {d b s : Text} : IsDirective d → Spaces b → Codeless s → Codeless (d ++ (b ++ ';' :: s))

/-- A text is cut in one way only at the first occurrence of a mark. -/
theorem append_mark_inj {mark : Char} {v v' r r' : Text} (hv : mark ∉ v) (hv' : mark ∉ v')
    (h : v ++ mark :: r = v' ++ mark :: r') : v = v' ∧ r = r' := by
  have hread : quoted? mark (v ++ mark :: r) = some (v, r) := quoted?_eq_some_iff.2 ⟨rfl, hv⟩
  rw [h, quoted?_eq_some_iff.2 ⟨rfl, hv'⟩] at hread
  obtain ⟨rfl, rfl⟩ := Prod.mk.inj (Option.some.inj hread)
  exact ⟨rfl, rfl⟩

/-- A text is cut in one way only at its first close mark. -/
theorem append_close_inj {w w' s s' : Text} (hw : ¬ ['*', '/'] <:+: w) (hw' : ¬ ['*', '/'] <:+: w')
    (h : w ++ '*' :: '/' :: s = w' ++ '*' :: '/' :: s') : w = w' ∧ s = s' := by
  -- a longer front would hold the close mark that ends the shorter one
  have hno : ∀ {x x' y y' : Text}, ¬ ['*', '/'] <:+: x' → x' = x ++ y →
      '*' :: '/' :: y' = y ++ '*' :: '/' :: s' ∨ '*' :: '/' :: y' = y ++ '*' :: '/' :: s → y = [] := by
    intro x x' y y' hx' hxy hrest
    cases y with
    | nil => rfl
    | cons c y =>
      cases y with
      | nil => rcases hrest with hrest | hrest <;> simp at hrest
      | cons d y =>
        refine absurd ⟨x, y, ?_⟩ hx'
        rw [hxy]
        rcases hrest with hrest | hrest <;>
          (obtain ⟨rfl, rfl, -⟩ : '*' = c ∧ '/' = d ∧ _ := by simpa using hrest) <;> simp
  rcases List.append_eq_append_iff.1 h with ⟨y, hy, hrest⟩ | ⟨y, hy, hrest⟩
  · obtain rfl := hno hw' hy (.inl hrest)
    exact ⟨by simpa using hy.symm, by simpa using hrest⟩
  · obtain rfl := hno hw hy (.inr hrest)
    exact ⟨by simpa using hy, by simpa using hrest.symm⟩

/-- The first close mark of a text. -/
theorem exists_first_close {w : Text} (h : ['*', '/'] <:+: w) :
    ∃ c v, w = c ++ '*' :: '/' :: v ∧ ¬ ['*', '/'] <:+: c := by
  induction w with
  | nil => simp at h
  | cons d w ih =>
    rcases List.infix_cons_iff.1 h with ⟨v, hv⟩ | h
    · exact ⟨[], v, hv.symm, by simp⟩
    · by_cases hfront : ['*', '/'] <+: d :: w
      · obtain ⟨v, hv⟩ := hfront
        exact ⟨[], v, hv.symm, by simp⟩
      · obtain ⟨c, v, rfl, hc⟩ := ih h
        refine ⟨d :: c, v, rfl, fun hin => ?_⟩
        rcases List.infix_cons_iff.1 hin with ⟨u, hu⟩ | hin
        · refine hfront ⟨u ++ '*' :: '/' :: v, ?_⟩
          rw [← List.append_assoc, hu]
          rfl
        · exact hc hin

namespace Codeless

/-- Text without code by its first character. -/
theorem head_cases {c : Char} {s : Text} (h : Codeless (c :: s)) :
    (isBlank c = true ∧ Codeless s) ∨
      (c = '/' ∧
        ((∃ w s', s = '/' :: (w ++ '\n' :: s') ∧ '\n' ∉ w ∧ Codeless s') ∨
          (∃ w, s = '/' :: w ∧ '\n' ∉ w) ∨
          ∃ w s', s = '*' :: (w ++ '*' :: '/' :: s') ∧ ¬ ['*', '/'] <:+: w ∧ Codeless s')) ∨
      (isQuote c = true ∧ ∃ d s', c :: s = d ++ s' ∧ IsDirective d ∧
        (Codeless s' ∨ ∃ b s'', Spaces b ∧ s' = b ++ ';' :: s'' ∧ Codeless s'')) := by
  have hquote : ∀ {d s' : Text}, IsDirective d → c :: s = d ++ s' → isQuote c = true := by
    intro d s' hd hs
    obtain ⟨q, t, rfl, hq⟩ := hd.eq_cons
    obtain ⟨rfl, -⟩ := List.cons.inj hs
    exact hq
  generalize ht : c :: s = t at h
  cases h with
  | nil => cases ht
  | blank hc hs =>
    obtain ⟨rfl, rfl⟩ := List.cons.inj ht
    exact .inl ⟨hc, hs⟩
  | remark hw hs =>
    obtain ⟨rfl, rfl⟩ := List.cons.inj ht
    exact .inr (.inl ⟨rfl, .inl ⟨_, _, rfl, hw, hs⟩⟩)
  | lastRemark hw =>
    obtain ⟨rfl, rfl⟩ := List.cons.inj ht
    exact .inr (.inl ⟨rfl, .inr (.inl ⟨_, rfl, hw⟩)⟩)
  | comment hw hs =>
    obtain ⟨rfl, rfl⟩ := List.cons.inj ht
    exact .inr (.inl ⟨rfl, .inr (.inr ⟨_, _, rfl, hw, hs⟩)⟩)
  | directive hd hs => exact .inr (.inr ⟨hquote hd ht, _, _, rfl, hd, .inl hs⟩)
  | ended hd hb hs => exact .inr (.inr ⟨hquote hd ht, _, _, rfl, hd, .inr ⟨_, _, hb, rfl, hs⟩⟩)

theorem of_blank {c : Char} {s : Text} (hc : isBlank c = true) (h : Codeless (c :: s)) :
    Codeless s := by
  rcases h.head_cases with ⟨-, hs⟩ | ⟨rfl, -⟩ | ⟨hq, -⟩
  · exact hs
  · exact absurd hc (by decide)
  · rw [isQuote_of_isBlank hc] at hq
    cases hq

theorem blanks_append_iff {b s : Text} (hb : ∀ c ∈ b, isBlank c = true) :
    Codeless (b ++ s) ↔ Codeless s := by
  induction b with
  | nil => rfl
  | cons c b ih =>
    obtain ⟨hc, hb⟩ := List.forall_mem_cons.1 hb
    rw [List.cons_append, ← ih hb]
    exact ⟨of_blank hc, .blank hc⟩

theorem of_remark {w s : Text} (hw : '\n' ∉ w) (h : Codeless ('/' :: '/' :: (w ++ '\n' :: s))) :
    Codeless s := by
  rcases h.head_cases with ⟨hc, -⟩ | ⟨-, ⟨w', s', hs, hw', hs'⟩ | ⟨w', hs, hw'⟩ | ⟨w', s', hs, -⟩⟩ | ⟨hq, -⟩
  · exact absurd hc (by decide)
  · obtain ⟨-, rfl⟩ := append_mark_inj hw hw' (List.cons.inj hs).2
    exact hs'
  · refine absurd ?_ hw'
    rw [← (List.cons.inj hs).2]
    simp
  · exact absurd (List.cons.inj hs).1 (by decide)
  · exact absurd hq (by decide)

theorem of_comment {w s : Text} (hw : ¬ ['*', '/'] <:+: w)
    (h : Codeless ('/' :: '*' :: (w ++ '*' :: '/' :: s))) : Codeless s := by
  rcases h.head_cases with ⟨hc, -⟩ | ⟨-, ⟨w', s', hs, -⟩ | ⟨w', hs, -⟩ | ⟨w', s', hs, hw', hs'⟩⟩ | ⟨hq, -⟩
  · exact absurd hc (by decide)
  · exact absurd (List.cons.inj hs).1 (by decide)
  · exact absurd (List.cons.inj hs).1 (by decide)
  · obtain ⟨-, rfl⟩ := append_close_inj hw hw' (List.cons.inj hs).2
    exact hs'
  · exact absurd hq (by decide)

theorem of_directive {d s : Text} (hd : IsDirective d) (h : Codeless (d ++ s)) :
    Codeless s ∨ ∃ b s', Spaces b ∧ s = b ++ ';' :: s' ∧ Codeless s' := by
  obtain ⟨q, t, rfl, hq⟩ := hd.eq_cons
  rcases h.head_cases with ⟨hc, -⟩ | ⟨rfl, -⟩ | ⟨-, d', s', hs, hd', hs'⟩
  · rw [isQuote_of_isBlank hc] at hq
    cases hq
  · exact absurd hq (by decide)
  · obtain ⟨-, rfl⟩ := hd.append_inj hd' hs
    exact hs'

/-- No text without code begins with a semicolon. -/
theorem not_semicolon {s : Text} : ¬ Codeless (';' :: s) := by
  intro h
  rcases h.head_cases with ⟨hc, -⟩ | ⟨hc, -⟩ | ⟨hq, -⟩
  · exact absurd hc (by decide)
  · exact absurd hc (by decide)
  · exact absurd hq (by decide)

end Codeless

/-! ### After whole lines -/

theorem Spaces.isBlank {b : Text} (hb : Spaces b) : ∀ c ∈ b, isBlank c = true := by
  intro c hc
  have hspace := hb c hc
  simp only [isSpace, Bool.or_eq_true, beq_iff_eq] at hspace
  rcases hspace with rfl | rfl <;> decide

/-- Text of whole lines, or none. -/
def EndsLine (a : Text) : Prop := a = [] ∨ a.getLast? = some '\n'

theorem EndsLine.of_append {x a : Text} (h : EndsLine (x ++ a)) : EndsLine a := by
  cases hlast : a.getLast? with
  | none => exact .inl (List.getLast?_eq_none_iff.1 hlast)
  | some c =>
    rcases h with hnil | hfeed
    · exact .inl (List.append_eq_nil_iff.1 hnil).2
    · rw [List.getLast?_append, hlast] at hfeed
      exact .inr (hlast.trans hfeed)

namespace Codeless

/-- No semicolon is left over after text that goes on to the next line. -/
theorem not_before_semicolon {s t b r : Text} (h : Codeless s) (hfeed : '\n' ∈ s)
    (hb : Spaces b) : s ++ t ≠ b ++ ';' :: r := by
  intro hsplit
  have hmem : '\n' ∉ b := hb.not_mem (by decide)
  rcases List.append_eq_append_iff.1 hsplit with ⟨x, rfl, -⟩ | ⟨x, rfl, hx⟩
  · exact hmem (List.mem_append_left x hfeed)
  · cases x with
    | nil => exact hmem (by simpa using hfeed)
    | cons c x =>
      obtain ⟨rfl, -⟩ := List.cons.inj hx
      exact not_semicolon ((blanks_append_iff hb.isBlank).1 h)

/-- **Whole lines without code can be taken off.** -/
theorem of_append {a t : Text} (ha : Codeless a) (hlines : EndsLine a)
    (h : Codeless (a ++ t)) : Codeless t := by
  induction ha with
  | nil => exact h
  | @blank c s hc _ ih => exact ih (EndsLine.of_append (x := [c]) hlines) (h.of_blank hc)
  | @remark w s hw _ ih =>
    have hsplit : '/' :: '/' :: (w ++ '\n' :: s) = ('/' :: '/' :: (w ++ ['\n'])) ++ s := by simp
    rw [hsplit] at hlines
    exact ih hlines.of_append (of_remark hw (by simpa using h))
  | @lastRemark w hw =>
    -- a remark without a line feed ends no line
    rcases hlines with hnil | hfeed
    · cases hnil
    · have hmem := List.mem_of_getLast? hfeed
      simp [hw] at hmem
  | @comment w s hw _ ih =>
    have hsplit : '/' :: '*' :: (w ++ '*' :: '/' :: s) = ('/' :: '*' :: (w ++ ['*', '/'])) ++ s := by simp
    rw [hsplit] at hlines
    exact ih hlines.of_append (of_comment hw (by simpa using h))
  | @directive d s hd hs ih =>
    have hfeed : '\n' ∈ s := by
      rcases hlines with hnil | hfeed
      · obtain ⟨q, v, rfl, -⟩ := hd.eq_cons
        cases hnil
      · exact (List.mem_append.1 (List.mem_of_getLast? hfeed)).resolve_left hd.not_mem_feed
    rw [List.append_assoc] at h
    rcases h.of_directive hd with h | ⟨b, s', hb, hsplit, -⟩
    · exact ih hlines.of_append h
    · exact absurd hsplit (hs.not_before_semicolon hfeed hb)
  | @ended d b s hd hb _ ih =>
    have hlines' : EndsLine s := by
      have hsplit : d ++ (b ++ ';' :: s) = (d ++ b ++ [';']) ++ s := by simp
      exact (hsplit ▸ hlines).of_append
    have hs : d ++ (b ++ ';' :: s) ++ t = d ++ (b ++ ';' :: (s ++ t)) := by simp
    rw [hs] at h
    rcases h.of_directive hd with h | ⟨b', s', hb', hsplit, hs'⟩
    · exact absurd ((blanks_append_iff hb.isBlank).1 h) not_semicolon
    · obtain ⟨-, rfl⟩ := append_mark_inj (hb.not_mem (by decide)) (hb'.not_mem (by decide)) hsplit
      exact ih hlines' hs'

end Codeless

/-! ### Lines that run on -/

theorem IsLineBreak.isBlank {z : Text} (h : IsLineBreak z) : ∀ c ∈ z, isBlank c = true := by
  cases h with
  | feed hb =>
    intro c hc
    rcases List.mem_append.1 hc with hc | hc
    · exact hb.isBlank c hc
    · rw [List.mem_singleton.1 hc]
      decide
  | crlf hb =>
    intro c hc
    rcases List.mem_append.1 hc with hc | hc
    · exact hb.isBlank c hc
    · rcases List.mem_pair.1 hc with rfl | rfl <;> decide

theorem IsDirectiveEnd.isBlank {t r : Text} (h : IsDirectiveEnd t r) : ∀ c ∈ t, isBlank c = true := by
  rcases h with ht | ⟨ht, -⟩
  · exact IsLineBreak.isBlank ht
  · exact Spaces.isBlank ht

/-- A line has no code, or it goes on after its comment. -/
theorem IsPrologueLine.codeless_or_overrun {l r : Text} (h : IsPrologueLine l r) :
    (∀ t, Codeless t → Codeless (l ++ t)) ∨
      ∃ b c v, l = b ++ ['/', '*'] ++ c ++ ['*', '/'] ++ v ∧ Spaces b ∧ ¬ ['*', '/'] <:+: c ∧
        ∀ z r', v ++ r = z ++ r' → ¬ IsLineBreak z := by
  cases h with
  | blank hz => exact .inl fun t ht => (Codeless.blanks_append_iff hz.isBlank).2 ht
  | @remark b w r hb hw =>
    refine .inl fun t ht => ?_
    have hs : b ++ ['/', '/'] ++ w ++ ['\n'] ++ t = b ++ '/' :: '/' :: (w ++ '\n' :: t) := by simp
    rw [hs]
    exact (Codeless.blanks_append_iff hb.isBlank).2 (.remark hw ht)
  | @comment b w z r hb hz hfirst =>
    by_cases hw : ['*', '/'] <:+: w
    · -- the comment is over at an earlier close mark, which does not end the line
      obtain ⟨c, v, rfl, hc⟩ := exists_first_close hw
      refine .inr ⟨b, c, v ++ ['*', '/'] ++ z, by simp, hb, hc, fun z' r' hrest hz' => ?_⟩
      refine hfirst ('*' :: '/' :: v) (List.suffix_append c _) (List.cons_ne_nil _ _) ⟨z', r', ?_, hz'⟩
      rw [List.append_assoc _ z', ← hrest]
      simp
    · refine .inl fun t ht => ?_
      have hs : b ++ ['/', '*'] ++ w ++ ['*', '/'] ++ z ++ t =
          b ++ '/' :: '*' :: (w ++ '*' :: '/' :: (z ++ t)) := by simp
      rw [hs]
      have hzt : Codeless (z ++ t) := (Codeless.blanks_append_iff hz.isBlank).2 ht
      exact (Codeless.blanks_append_iff hb.isBlank).2 (.comment hw hzt)
  | @directive b d u r hb hd hu =>
    refine .inl fun t ht => ?_
    have hs : b ++ d ++ u ++ t = b ++ (d ++ (u ++ t)) := by simp
    rw [hs]
    refine (Codeless.blanks_append_iff hb.isBlank).2 ?_
    cases hu with
    | bare hend =>
      exact .directive hd ((Codeless.blanks_append_iff hend.isBlank).2 ht)
    | @ended b' u r hb' hend =>
      have hut : Codeless (u ++ t) := (Codeless.blanks_append_iff hend.isBlank).2 ht
      simpa using Codeless.ended hd hb' hut

/-- After whole lines without code a block comment begins a line and does not end it. -/
structure RunsOn (before rest : Text) : Prop where
  split : ∃ a b c, before = a ++ (b ++ ['/', '*'] ++ c ++ ['*', '/'] ++ rest) ∧ EndsLine a ∧
    Codeless a ∧ Spaces b ∧ ¬ ['*', '/'] <:+: c
  goesOn : ∀ z r, rest = z ++ r → ¬ IsLineBreak z

theorem codeless_comment_iff {b c t : Text} (hb : Spaces b) (hc : ¬ ['*', '/'] <:+: c) :
    Codeless (b ++ ['/', '*'] ++ c ++ ['*', '/'] ++ t) ↔ Codeless t := by
  have hs : b ++ ['/', '*'] ++ c ++ ['*', '/'] ++ t = b ++ '/' :: '*' :: (c ++ '*' :: '/' :: t) := by simp
  rw [hs]
  exact (Codeless.blanks_append_iff hb.isBlank).trans ⟨Codeless.of_comment hc, .comment hc⟩

theorem RunsOn.codeless_rest {before rest : Text} (h : RunsOn before rest) (hcodeless : Codeless before) :
    Codeless rest := by
  obtain ⟨a, b, c, rfl, hlines, ha, hb, hc⟩ := h.split
  exact (codeless_comment_iff hb hc).1 (Codeless.of_append ha hlines hcodeless)

/-- A line without code in front changes nothing. -/
theorem RunsOn.cons {l before after rest : Text} (hl : IsPrologueLine l (before ++ after))
    (hline : ∀ t, Codeless t → Codeless (l ++ t)) (h : RunsOn before rest) :
    RunsOn (l ++ before) rest := by
  obtain ⟨a, b, c, rfl, hlines, ha, hb, hc⟩ := h.split
  refine ⟨⟨l ++ a, b, c, by simp, ?_, hline a ha, hb, hc⟩, h.goesOn⟩
  rcases hlines with rfl | hfeed
  · rw [List.append_nil]
    exact .inr (hl.ends.resolve_right (by simp))
  · exact .inr (by simp [List.getLast?_append, hfeed])

/-- **Code gets into prologue lines only after a block comment that does not end its line.** -/
theorem codeless_iff_of_lines {a r : Text} (h : Lines a r) :
    Codeless a ↔ ∀ rest, RunsOn a rest → Codeless rest := by
  refine ⟨fun ha rest hrest => hrest.codeless_rest ha, fun hruns => ?_⟩
  induction h with
  | nil => exact .nil
  | @cons l a r hl _ ih =>
    rcases hl.codeless_or_overrun with hline | ⟨b, c, v, rfl, hb, hc, hgoesOn⟩
    · exact hline a (ih fun rest hrest => hruns rest (hrest.cons hl hline))
    · have hrun : RunsOn (b ++ ['/', '*'] ++ c ++ ['*', '/'] ++ v ++ a) (v ++ a) := by
        refine ⟨⟨[], b, c, by simp, .inl rfl, .nil, hb, hc⟩, fun z r' hsplit => ?_⟩
        exact hgoesOn z (r' ++ r) (by rw [← List.append_assoc, hsplit, List.append_assoc])
      rw [List.append_assoc _ v a]
      exact (codeless_comment_iff hb hc).2 (hruns _ hrun)

/-! ### Above the declaration -/

/-- **Above the first import of a text stand prologue lines, without code unless it follows a block comment
that does not end its line.** -/
theorem place_codeless_iff (refusals : Refusals) (source m text : Text) (symbols : List Text)
    (hnone : statementPattern.occurrences source = [])
    (hadd : add refusals source m symbols = .ok (some text)) :
    PutsLine source (declaration m symbols) text (place source).before (place source).after
        (lineEnd source) ∧
      Lines (place source).before (place source).after ∧
      (Codeless (place source).before ↔ ∀ rest, RunsOn (place source).before rest → Codeless rest) := by
  obtain ⟨-, rfl⟩ := add_eq_ok_some_iff.1 hadd
  obtain ⟨hbefore, -, hlines⟩ := place_of_no_statement hnone
  rw [← hbefore] at hlines
  exact ⟨putsLine_insertLine source _, hlines, codeless_iff_of_lines hlines⟩

/-- A line with two comments, and a directive. -/
def twoComments : Text := "/* a */ /* b */\n'use client';\n\nf();\n".toList

theorem twoComments_above :
    statementPattern.occurrences twoComments = [] ∧
      ∃ text, add noRefusals twoComments defaultModule ["A".toList] = .ok (some text) ∧
        PutsLine twoComments (declaration defaultModule ["A".toList]) text
          "/* a */ /* b */\n'use client';\n\n".toList "f();\n".toList ['\n'] ∧
        Codeless "/* a */ /* b */\n'use client';\n\n".toList ∧
        ∀ rest, RunsOn "/* a */ /* b */\n'use client';\n\n".toList rest → Codeless rest := by
  have hnone : statementPattern.occurrences twoComments = [] := by decide +kernel
  have hplace : place twoComments =
      ⟨"/* a */ /* b */\n'use client';\n\n".toList, "f();\n".toList⟩ := by decide +kernel
  have hfeed : lineEnd twoComments = ['\n'] := by decide +kernel
  have hadd : add noRefusals twoComments defaultModule ["A".toList] =
      .ok (some ("/* a */ /* b */\n'use client';\n\n".toList ++
        declaration defaultModule ["A".toList] ++ "\nf();\n".toList)) := by decide +kernel
  have habove : Codeless "/* a */ /* b */\n'use client';\n\n".toList := by
    have hend : Codeless "\n\n".toList := .blank (by decide) (.blank (by decide) .nil)
    have hdirective : Codeless "\n'use client';\n\n".toList :=
      .blank (by decide) (.ended (d := "'use client'".toList) (b := [])
        ⟨singleQuote, "client".toList, by decide, by decide, by decide, rfl⟩ (by simp [Spaces]) hend)
    exact .comment (w := " a ".toList) (by decide)
      (.blank (by decide) (.comment (w := " b ".toList) (by decide) hdirective))
  obtain ⟨hputs, -, hiff⟩ := place_codeless_iff _ twoComments defaultModule _ ["A".toList] hnone hadd
  rw [hplace] at hputs hiff
  rw [hfeed] at hputs
  exact ⟨hnone, _, hadd, hputs, habove, hiff.1 habove⟩

/-- A call between two comments of one line. -/
def callBetweenComments : Text := "/* a */ x(); /* b */\ny();\n".toList

/-- **Code may stand above a first import.** -/
theorem declaration_below_code :
    statementPattern.occurrences callBetweenComments = [] ∧
      add noRefusals callBetweenComments defaultModule ["A".toList] =
        .ok (some ("/* a */ x(); /* b */\n".toList ++ declaration defaultModule ["A".toList] ++
          "\ny();\n".toList)) ∧
      (place callBetweenComments).before = "/* a */ x(); /* b */\n".toList ∧
      ¬ Codeless "/* a */ x(); /* b */\n".toList := by
  refine ⟨by decide +kernel, by decide +kernel, by decide +kernel, fun h => ?_⟩
  have hrest : Codeless " x(); /* b */\n".toList := Codeless.of_comment (w := " a ".toList) (by decide) h
  rcases (hrest.of_blank (by decide)).head_cases with ⟨hc, -⟩ | ⟨hc, -⟩ | ⟨hq, -⟩
  · exact absurd hc (by decide)
  · exact absurd hc (by decide)
  · exact absurd hq (by decide)

end SpinnerMarkup.Import
