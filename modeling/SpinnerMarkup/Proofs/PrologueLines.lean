import Mathlib.Data.List.Basic
import Mathlib.Data.List.Infix
import Mathlib.Data.List.TakeWhile
import SpinnerMarkup.Import.Prologue

/-! The prologue is the longest front of a text that is made of prologue lines.

`IsPrologueLine` is the grammar of a line: a blank line, a comment to the end of its line, a block comment
up to the first close mark that ends a line, or a directive with nothing after it but spaces and a
semicolon. Each reader takes what its part of the grammar says and nothing else
(`prologueLine?_eq_some_iff`). `prologueInduction` is induction along the lines, and
`prefix_prologue_iff` says how far the prologue reaches: up to any place to which lines lead. -/
namespace SpinnerMarkup.Import

open Text

/-! ### Lines -/

/-- Nothing but spaces and tabs. -/
def Spaces (b : Text) : Prop := ∀ c ∈ b, isSpace c = true

/-- Spaces and the end of a line. -/
inductive IsLineBreak : Text → Prop where
  | feed {b : Text} : Spaces b → IsLineBreak (b ++ ['\n'])
  | crlf {b : Text} : Spaces b → IsLineBreak (b ++ ['\r', '\n'])

/-- A text begins with a close mark that ends its line. -/
def ClosesLine (s : Text) : Prop := ∃ z r, s = ['*', '/'] ++ z ++ r ∧ IsLineBreak z

/-- A quoted `use ...` within one line. -/
def IsDirective (d : Text) : Prop :=
  ∃ q v, isQuote q = true ∧ q ∉ v ∧ '\n' ∉ v ∧ d = q :: (['u', 's', 'e', ' '] ++ v ++ [q])

/-- Spaces up to the end of the line or of the text. -/
def IsDirectiveEnd (t r : Text) : Prop := IsLineBreak t ∨ Spaces t ∧ r = []

/-- What may stand after a directive on its line. -/
inductive IsDirectiveRest : Text → Text → Prop where
  | bare {t r : Text} : IsDirectiveEnd t r → IsDirectiveRest t r
  | ended {b t r : Text} : Spaces b → IsDirectiveEnd t r → IsDirectiveRest (b ++ ';' :: t) r

/-- A line of a prologue and what follows it. -/
inductive IsPrologueLine : Text → Text → Prop where
  | blank {z r : Text} : IsLineBreak z → IsPrologueLine z r
  | remark {b w r : Text} : Spaces b → '\n' ∉ w → IsPrologueLine (b ++ ['/', '/'] ++ w ++ ['\n']) r
  /-- No close mark before the last one ends a line. -/
  | comment {b w z r : Text} : Spaces b → IsLineBreak z →
      (∀ y, y <:+ w → y ≠ [] → ¬ ClosesLine (y ++ ['*', '/'] ++ z ++ r)) →
      IsPrologueLine (b ++ ['/', '*'] ++ w ++ ['*', '/'] ++ z) r
  | directive {b d u r : Text} : Spaces b → IsDirective d → IsDirectiveRest u r →
      IsPrologueLine (b ++ d ++ u) r

/-- Lines of a prologue and what follows them. -/
inductive Lines : Text → Text → Prop where
  | nil {r : Text} : Lines [] r
  | cons {l a r : Text} : IsPrologueLine l (a ++ r) → Lines a r → Lines (l ++ a) r

/-! ### The readers -/

theorem spaces_takeWhile (s : Text) : Spaces (s.takeWhile isSpace) := fun _ h => List.mem_takeWhile_imp h

theorem Spaces.not_mem {b : Text} (hb : Spaces b) {c : Char} (hc : isSpace c = false) : c ∉ b := by
  intro hmem
  rw [hb c hmem] at hc
  cases hc

theorem lineBreak?_eq_some_iff {s z : Text} :
    lineBreak? s = some z ↔ IsLineBreak z ∧ ∃ r, s = z ++ r := by
  constructor
  · intro h
    unfold lineBreak? at h
    split at h
    · next r hr =>
      obtain rfl := Option.some.inj h
      exact ⟨.feed (spaces_takeWhile s), r, after?_dropWhile_split hr⟩
    · split at h
      · next r hr =>
        obtain rfl := Option.some.inj h
        exact ⟨.crlf (spaces_takeWhile s), r, after?_dropWhile_split hr⟩
      · cases h
  · rintro ⟨hz, r, rfl⟩
    cases hz with
    | @feed b hb =>
      have hs : b ++ ['\n'] ++ r = b ++ '\n' :: r := by simp
      rw [hs, lineBreak?, dropWhile_stop hb (by decide), takeWhile_stop hb (by decide)]
      simp [after?]
    | @crlf b hb =>
      have hs : b ++ ['\r', '\n'] ++ r = b ++ '\r' :: '\n' :: r := by simp
      rw [hs, lineBreak?, dropWhile_stop hb (by decide), takeWhile_stop hb (by decide)]
      simp [after?]

theorem closesLine_iff {s : Text} {z : Text} :
    (after? ['*', '/'] s).bind lineBreak? = some z ↔ IsLineBreak z ∧ ∃ r, s = ['*', '/'] ++ z ++ r := by
  rw [Option.bind_eq_some_iff]
  constructor
  · rintro ⟨u, hu, hread⟩
    obtain ⟨hz, r, rfl⟩ := lineBreak?_eq_some_iff.1 hread
    exact ⟨hz, r, by rw [after?_eq_some_iff.1 hu, List.append_assoc]⟩
  · rintro ⟨hz, r, rfl⟩
    refine ⟨z ++ r, after?_eq_some_iff.2 (List.append_assoc _ _ _), ?_⟩
    exact lineBreak?_eq_some_iff.2 ⟨hz, r, rfl⟩

/-- **A block comment goes up to the first close mark that ends a line.** -/
theorem blockEnd?_eq_some_iff {s t : Text} : blockEnd? s = some t ↔
    ∃ w z r, s = w ++ ['*', '/'] ++ z ++ r ∧ t = w ++ ['*', '/'] ++ z ∧ IsLineBreak z ∧
      ∀ y, y <:+ w → y ≠ [] → ¬ ClosesLine (y ++ ['*', '/'] ++ z ++ r) := by
  induction s generalizing t with
  | nil => simp [blockEnd?]
  | cons c s ih =>
    rw [blockEnd?]
    cases hclose : (after? ['*', '/'] (c :: s)).bind lineBreak? with
    | some z =>
      obtain ⟨hz, r, hs⟩ := closesLine_iff.1 hclose
      dsimp only
      rw [Option.some.injEq]
      constructor
      · rintro rfl
        refine ⟨[], z, r, hs, rfl, hz, fun y hy hne => absurd (List.suffix_nil.1 hy) hne⟩
      · rintro ⟨w, z', r', hs', rfl, hz', hfirst⟩
        cases w with
        | nil =>
          have hclose' := closesLine_iff.2 ⟨hz', r', hs'⟩
          rw [hclose] at hclose'
          obtain rfl := Option.some.inj hclose'
          rfl
        | cons d w =>
          refine absurd ⟨z, r, ?_, hz⟩ (hfirst (d :: w) (List.suffix_refl _) (List.cons_ne_nil d w))
          rw [← hs', hs]
    | none =>
      have hopen : ¬ ClosesLine (c :: s) := by
        rintro ⟨z, r, hs, hz⟩
        rw [closesLine_iff.2 ⟨hz, r, hs⟩] at hclose
        cases hclose
      dsimp only
      rw [Option.map_eq_some_iff]
      constructor
      · rintro ⟨u, hu, rfl⟩
        obtain ⟨w, z, r, rfl, rfl, hz, hfirst⟩ := ih.1 hu
        refine ⟨c :: w, z, r, rfl, rfl, hz, fun y hy hne => ?_⟩
        rcases List.suffix_cons_iff.1 hy with rfl | hy
        · exact hopen
        · exact hfirst y hy hne
      · rintro ⟨w, z, r, hs, rfl, hz, hfirst⟩
        cases w with
        | nil => exact absurd ⟨z, r, hs, hz⟩ hopen
        | cons d w =>
          obtain ⟨rfl, rfl⟩ := List.cons.inj hs
          refine ⟨_, ih.2 ⟨w, z, r, rfl, rfl, hz, fun y hy hne => ?_⟩, rfl⟩
          exact hfirst y (hy.trans (List.suffix_cons c w)) hne

theorem useString?_eq_some_iff {s d : Text} :
    useString? s = some d ↔ IsDirective d ∧ ∃ r, s = d ++ r := by
  constructor
  · intro h
    cases s with
    | nil => cases h
    | cons q s =>
      rw [useString?] at h
      split at h
      · next hq =>
        split at h
        · cases h
        · next t ht =>
          split at h
          · cases h
          · next v r hv =>
            split at h
            · cases h
            · next hline =>
              obtain rfl := Option.some.inj h
              obtain ⟨rfl, hmark⟩ := quoted?_eq_some_iff.1 hv
              refine ⟨⟨q, v, hq, hmark, by simpa using hline, rfl⟩, r, ?_⟩
              rw [after?_eq_some_iff.1 ht]
              simp
      · cases h
  · rintro ⟨⟨q, v, hq, hmark, hline, rfl⟩, r, rfl⟩
    have hs : q :: (['u', 's', 'e', ' '] ++ v ++ [q]) ++ r =
        q :: (['u', 's', 'e', ' '] ++ (v ++ q :: r)) := by simp
    rw [hs, useString?, if_pos hq, after?_eq_some_iff.2 rfl]
    dsimp only
    rw [quoted?_eq_some_iff.2 ⟨rfl, hmark⟩]
    simp [hline]

/-- A directive opens with a quotation mark. -/
theorem IsDirective.eq_cons {d : Text} (h : IsDirective d) : ∃ q t, d = q :: t ∧ isQuote q = true := by
  obtain ⟨q, v, hq, -, -, rfl⟩ := h
  exact ⟨q, _, rfl, hq⟩

/-- A quotation mark ends spaces and begins no other line. -/
theorem ne_of_isQuote {q : Char} (h : isQuote q = true) :
    isSpace q = false ∧ q ≠ '/' ∧ q ≠ '\n' ∧ q ≠ '\r' ∧ q ≠ ';' := by
  simp only [isQuote, Bool.or_eq_true, beq_iff_eq] at h
  rcases h with rfl | rfl <;> decide

theorem IsDirective.not_mem_feed {d : Text} (h : IsDirective d) : '\n' ∉ d := by
  obtain ⟨q, v, hq, -, hv, rfl⟩ := h
  simp [hv, (ne_of_isQuote hq).2.2.1.symm]

/-- A directive ends at its second quotation mark. -/
theorem IsDirective.append_inj {d d' s s' : Text} (hd : IsDirective d) (hd' : IsDirective d')
    (h : d ++ s = d' ++ s') : d = d' ∧ s = s' := by
  have hread := useString?_eq_some_iff.2 ⟨hd, s, rfl⟩
  rw [h, useString?_eq_some_iff.2 ⟨hd', s', rfl⟩] at hread
  obtain rfl := Option.some.inj hread
  exact ⟨rfl, List.append_cancel_left h⟩

theorem directiveEnd?_eq_some_iff {s t : Text} :
    directiveEnd? s = some t ↔ ∃ r, s = t ++ r ∧ IsDirectiveEnd t r := by
  unfold directiveEnd?
  cases hbreak : lineBreak? s with
  | some z =>
    obtain ⟨hz, r, rfl⟩ := lineBreak?_eq_some_iff.1 hbreak
    dsimp only
    rw [Option.some.injEq]
    constructor
    · rintro rfl
      exact ⟨r, rfl, .inl hz⟩
    · rintro ⟨r', hs, ht | ⟨ht, rfl⟩⟩
      · rw [lineBreak?_eq_some_iff.2 ⟨ht, r', hs⟩] at hbreak
        exact (Option.some.inj hbreak).symm
      · -- spaces alone end no line
        have hfeed : '\n' ∈ t := by
          rw [List.append_nil] at hs
          rw [← hs]
          cases hz <;> simp
        exact absurd (ht '\n' hfeed) (by decide)
  | none =>
    have hno : ∀ z r, s = z ++ r → ¬ IsLineBreak z := by
      intro z r hs hz
      rw [lineBreak?_eq_some_iff.2 ⟨hz, r, hs⟩] at hbreak
      cases hbreak
    dsimp only
    constructor
    · intro h
      split at h
      · next hall =>
        obtain rfl := Option.some.inj h
        exact ⟨[], by simp, .inr ⟨List.all_eq_true.1 hall, rfl⟩⟩
      · cases h
    · rintro ⟨r, rfl, ht | ⟨ht, rfl⟩⟩
      · exact absurd ht (hno t r rfl)
      · rw [List.append_nil, if_pos (List.all_eq_true.2 ht)]

/-- What may end a directive begins with no semicolon, spaces apart. -/
theorem after?_semicolon_of_isDirectiveEnd {t r : Text} (h : IsDirectiveEnd t r) :
    after? [';'] ((t ++ r).dropWhile isSpace) = none := by
  rcases h with ht | ⟨ht, rfl⟩
  · cases ht with
    | @feed b hb =>
      rw [List.append_assoc, List.singleton_append, dropWhile_stop hb (by decide)]
      simp [after?]
    | @crlf b hb =>
      rw [List.append_assoc, List.cons_append, dropWhile_stop hb (by decide)]
      simp [after?]
  · have hdrop : t.dropWhile isSpace = [] := List.dropWhile_eq_nil_iff.2 ht
    rw [List.append_nil, hdrop]
    rfl

theorem directiveLine?_eq_some_iff {s l : Text} : directiveLine? s = some l ↔
    ∃ b d u r, s = b ++ d ++ u ++ r ∧ l = b ++ d ++ u ∧ Spaces b ∧ IsDirective d ∧
      IsDirectiveRest u r := by
  constructor
  · intro h
    unfold directiveLine? at h
    split at h
    · cases h
    · next d hd =>
      obtain ⟨hd, r, hr⟩ := useString?_eq_some_iff.1 hd
      have hs : s = s.takeWhile isSpace ++ d ++ r :=
        after?_dropWhile_split (after?_eq_some_iff.2 hr)
      rw [hr, List.drop_left] at h
      dsimp only at h
      split at h
      · next v hv =>
        obtain ⟨t, ht, rfl⟩ := Option.map_eq_some_iff.1 h
        obtain ⟨r', rfl, hend⟩ := directiveEnd?_eq_some_iff.1 ht
        refine ⟨_, d, r.takeWhile isSpace ++ ';' :: t, r', ?_, by simp, spaces_takeWhile s, hd,
          .ended (spaces_takeWhile r) hend⟩
        conv => lhs; rw [hs]; rhs; rw [after?_dropWhile_split hv]
        simp
      · obtain ⟨t, ht, rfl⟩ := Option.map_eq_some_iff.1 h
        obtain ⟨r', rfl, hend⟩ := directiveEnd?_eq_some_iff.1 ht
        exact ⟨_, d, t, r', by simpa using hs, rfl, spaces_takeWhile s, hd, .bare hend⟩
  · rintro ⟨b, d, u, r, rfl, rfl, hb, hd, hu⟩
    obtain ⟨q, t, hqt, hq⟩ := hd.eq_cons
    have hdrop : (b ++ d ++ u ++ r).dropWhile isSpace = d ++ (u ++ r) := by
      rw [hqt, List.append_assoc, List.append_assoc, List.cons_append, dropWhile_stop hb (ne_of_isQuote hq).1]
    have htake : (b ++ d ++ u ++ r).takeWhile isSpace = b := by
      rw [hqt, List.append_assoc, List.append_assoc, List.cons_append, takeWhile_stop hb (ne_of_isQuote hq).1]
    rw [directiveLine?, hdrop, useString?_eq_some_iff.2 ⟨hd, u ++ r, rfl⟩]
    dsimp only
    rw [List.drop_left, htake]
    cases hu with
    | bare hend =>
      rw [after?_semicolon_of_isDirectiveEnd hend]
      dsimp only
      rw [directiveEnd?_eq_some_iff.2 ⟨r, rfl, hend⟩]
      rfl
    | @ended b' t r hb' hend =>
      have hs : b' ++ ';' :: t ++ r = b' ++ ';' :: (t ++ r) := by simp
      have hafter : after? [';'] (';' :: (t ++ r)) = some (t ++ r) := after?_eq_some_iff.2 rfl
      rw [hs, dropWhile_stop hb' (by decide), takeWhile_stop hb' (by decide), hafter]
      dsimp only
      rw [directiveEnd?_eq_some_iff.2 ⟨r, rfl, hend⟩]
      simp

/-- Where no slash follows the spaces, only a blank line is read. -/
theorem commentLine?_of_ne {b : Text} (hb : Spaces b) {c : Char} (hc : isSpace c = false) (hslash : c ≠ '/')
    (s : Text) : commentLine? (b ++ c :: s) = lineBreak? (b ++ c :: s) := by
  simp [commentLine?, dropWhile_stop hb hc, after?, hslash.symm]

theorem commentLine?_of_directive {b d : Text} (hb : Spaces b) (hd : IsDirective d) (s : Text) :
    commentLine? (b ++ d ++ s) = none := by
  obtain ⟨q, t, rfl, hq⟩ := hd.eq_cons
  obtain ⟨hspace, hslash, hfeed, hreturn, -⟩ := ne_of_isQuote hq
  have hs : b ++ q :: t ++ s = b ++ q :: (t ++ s) := by simp
  rw [hs, commentLine?_of_ne hb hspace hslash]
  simp [lineBreak?, dropWhile_stop hb hspace, after?, hfeed.symm, hreturn.symm]

theorem commentLine?_cases {s l : Text} (h : commentLine? s = some l) :
    ∃ r, s = l ++ r ∧ IsPrologueLine l r := by
  unfold commentLine? at h
  split at h
  · next t ht =>
    split at h
    · cases h
    · next hline =>
      obtain ⟨c, r, hr⟩ := List.exists_cons_of_ne_nil hline
      obtain rfl := Option.some.inj h
      obtain ⟨-, hsplit⟩ := dropWhile_ne_split hr
      refine ⟨r, ?_, .remark (spaces_takeWhile s) fun hmem => ?_⟩
      · conv => lhs; rw [after?_dropWhile_split ht, hsplit]
        simp
      · have hne := List.all_eq_true.1 (List.all_takeWhile (p := (· != '\n')) (l := t)) '\n' hmem
        simp at hne
  · split at h
    · next t ht =>
      obtain ⟨u, hu, rfl⟩ := Option.map_eq_some_iff.1 h
      obtain ⟨w, z, r, rfl, rfl, hz, hfirst⟩ := blockEnd?_eq_some_iff.1 hu
      refine ⟨r, ?_, ?_⟩
      · conv => lhs; rw [after?_dropWhile_split ht]
        simp
      · simpa using IsPrologueLine.comment (spaces_takeWhile s) hz hfirst
    · obtain ⟨hz, r, hr⟩ := lineBreak?_eq_some_iff.1 h
      exact ⟨r, hr, .blank hz⟩

theorem commentLine?_of_isLineBreak {z : Text} (h : IsLineBreak z) (r : Text) :
    commentLine? (z ++ r) = some z := by
  have hread : lineBreak? (z ++ r) = some z := lineBreak?_eq_some_iff.2 ⟨h, r, rfl⟩
  cases h with
  | @feed b hb =>
    have hs : b ++ ['\n'] ++ r = b ++ '\n' :: r := by simp
    rwa [hs, commentLine?_of_ne hb (by decide) (by decide), ← hs]
  | @crlf b hb =>
    have hs : b ++ ['\r', '\n'] ++ r = b ++ '\r' :: ('\n' :: r) := by simp
    rwa [hs, commentLine?_of_ne hb (by decide) (by decide), ← hs]

/-- **The reader takes the lines of the grammar and no others.** -/
theorem prologueLine?_eq_some_iff {s l : Text} :
    prologueLine? s = some l ↔ ∃ r, s = l ++ r ∧ IsPrologueLine l r := by
  constructor
  · intro h
    unfold prologueLine? at h
    split at h
    · next l' hl' =>
      obtain rfl := Option.some.inj h
      exact commentLine?_cases hl'
    · obtain ⟨b, d, u, r, rfl, rfl, hb, hd, hu⟩ := directiveLine?_eq_some_iff.1 h
      exact ⟨r, rfl, .directive hb hd hu⟩
  · rintro ⟨r, rfl, h⟩
    rw [prologueLine?]
    cases h with
    | blank hz => rw [commentLine?_of_isLineBreak hz]
    | @remark b w r hb hw =>
      have hs : b ++ ['/', '/'] ++ w ++ ['\n'] ++ r = b ++ '/' :: ('/' :: (w ++ '\n' :: r)) := by simp
      have hw' : ∀ c ∈ w, (c != '\n') = true := fun c hc => by
        simpa using fun heq : c = '\n' => hw (heq ▸ hc)
      have hread : commentLine? (b ++ '/' :: ('/' :: (w ++ '\n' :: r))) =
          some (b ++ ['/', '/'] ++ w ++ ['\n']) := by
        have hafter : after? ['/', '/'] ('/' :: '/' :: (w ++ '\n' :: r)) = some (w ++ '\n' :: r) :=
          after?_eq_some_iff.2 rfl
        rw [commentLine?, dropWhile_stop hb (by decide), takeWhile_stop hb (by decide), hafter]
        dsimp only
        rw [dropWhile_stop hw' (by simp), takeWhile_stop hw' (by simp)]
      rw [hs, hread]
    | @comment b w z r hb hz hfirst =>
      have hs : b ++ ['/', '*'] ++ w ++ ['*', '/'] ++ z ++ r =
          b ++ '/' :: ('*' :: (w ++ ['*', '/'] ++ z ++ r)) := by simp
      have hread : commentLine? (b ++ '/' :: ('*' :: (w ++ ['*', '/'] ++ z ++ r))) =
          some (b ++ ['/', '*'] ++ w ++ ['*', '/'] ++ z) := by
        have hblock := blockEnd?_eq_some_iff.2 ⟨w, z, r, rfl, rfl, hz, hfirst⟩
        simp only [commentLine?, dropWhile_stop hb (show isSpace '/' = false by decide),
          takeWhile_stop hb (show isSpace '/' = false by decide), after?, Char.reduceEq, if_true, if_false,
          hblock]
        simp
      rw [hs, hread]
    | @directive b d u r hb hd hu =>
      rw [List.append_assoc _ u r, commentLine?_of_directive hb hd, ← List.append_assoc]
      exact directiveLine?_eq_some_iff.2 ⟨b, d, u, r, rfl, rfl, hb, hd, hu⟩

/-- A line that begins with a directive, spaces apart, is a directive line. -/
theorem IsPrologueLine.directiveRest {b d u r : Text} (h : IsPrologueLine (b ++ d ++ u) r)
    (hb : Spaces b) (hd : IsDirective d) : IsDirectiveRest u r := by
  have hread : prologueLine? (b ++ d ++ u ++ r) = some (b ++ d ++ u) :=
    prologueLine?_eq_some_iff.2 ⟨r, rfl, h⟩
  rw [List.append_assoc _ u r, prologueLine?, commentLine?_of_directive hb hd] at hread
  obtain ⟨b', d', u', r', hs, hline, hb', hd', hrest⟩ := directiveLine?_eq_some_iff.1 hread
  obtain rfl : r = r' := by
    rw [← hline, List.append_assoc, List.append_assoc] at hs
    simpa using hs
  obtain ⟨q, t, hqt, hq⟩ := hd.eq_cons
  obtain ⟨q', t', hqt', hq'⟩ := hd'.eq_cons
  obtain rfl : b = b' := by
    have htake := congrArg (List.takeWhile isSpace) hline
    rwa [hqt, hqt', List.append_assoc, List.append_assoc, List.cons_append, List.cons_append,
      takeWhile_stop hb (ne_of_isQuote hq).1, takeWhile_stop hb' (ne_of_isQuote hq').1] at htake
  rw [List.append_assoc, List.append_assoc, List.append_cancel_left_eq] at hline
  obtain ⟨-, rfl⟩ := hd.append_inj hd' hline
  exact hrest

/-! ### Line after line -/

theorem IsPrologueLine.ends {l r : Text} (h : IsPrologueLine l r) : l.getLast? = some '\n' ∨ r = [] := by
  have hbreak : ∀ {a z : Text}, IsLineBreak z → (a ++ z).getLast? = some '\n' := by
    intro a z hz
    cases hz <;> simp [List.getLast?_append]
  have hend : ∀ {a t r : Text}, IsDirectiveEnd t r → (a ++ t).getLast? = some '\n' ∨ r = [] := by
    rintro a t r (ht | ⟨-, rfl⟩)
    · exact .inl (hbreak ht)
    · exact .inr rfl
  cases h with
  | blank hz => exact .inl (hbreak (a := []) hz)
  | remark => exact .inl List.getLast?_concat
  | comment _ hz _ => exact .inl (hbreak hz)
  | @directive b d u r _ _ hu =>
    cases hu with
    | bare ht => exact hend ht
    | @ended b' t r _ ht =>
      have hs : b ++ d ++ (b' ++ ';' :: t) = (b ++ d ++ b' ++ [';']) ++ t := by simp
      rw [hs]
      exact hend ht

theorem IsPrologueLine.ne_nil {l r : Text} (h : IsPrologueLine l r) : l ≠ [] := by
  cases h with
  | blank hz => cases hz <;> simp
  | remark => simp
  | comment => simp
  | directive _ hd _ =>
    obtain ⟨q, t, rfl, -⟩ := hd.eq_cons
    simp

theorem Lines.ends {a r : Text} (h : Lines a r) : a = [] ∨ a.getLast? = some '\n' ∨ r = [] := by
  induction h with
  | nil => exact .inl rfl
  | @cons l a r hl _ ih =>
    rcases ih with rfl | hfeed | rfl
    · rw [List.append_nil]
      exact .inr hl.ends
    · exact .inr (.inl (by simp [List.getLast?_append, hfeed]))
    · exact .inr (.inr rfl)

theorem prologueFrom_eq (n : Nat) (s : Text) :
    prologueFrom n s = s.take n ++ prologue (s.drop n) := by
  induction s generalizing n with
  | nil => cases n <;> rfl
  | cons c s ih =>
    cases n with
    | zero => rfl
    | succ n => rw [prologueFrom, ih]; rfl

theorem prologue_of_none {s : Text} (h : prologueLine? s = none) : prologue s = [] := by
  cases s with
  | nil => rfl
  | cons c s => rw [prologue, prologueFrom, h]

theorem prologue_of_line {l r : Text} (h : IsPrologueLine l r) : prologue (l ++ r) = l ++ prologue r := by
  have hread := prologueLine?_eq_some_iff.2 ⟨r, rfl, h⟩
  obtain ⟨c, w, rfl⟩ := List.exists_cons_of_ne_nil h.ne_nil
  rw [List.cons_append] at hread ⊢
  rw [prologue, prologueFrom, hread]
  dsimp only
  rw [prologueFrom_eq, List.length_cons, Nat.add_sub_cancel, List.take_left, List.drop_left]
  rfl

/-- Induction along the lines of the prologue. -/
@[elab_as_elim]
theorem prologueInduction {motive : Text → Prop} (stop : ∀ s, prologueLine? s = none → motive s)
    (line : ∀ l r, IsPrologueLine l r → motive r → motive (l ++ r)) (s : Text) : motive s := by
  -- the text after a line is shorter than the text before it
  induction hn : s.length using Nat.strong_induction_on generalizing s with
  | _ n ih =>
    cases hl : prologueLine? s with
    | none => exact stop s hl
    | some l =>
      obtain ⟨r, rfl, hline⟩ := prologueLine?_eq_some_iff.1 hl
      have hpos := List.length_pos_iff.2 hline.ne_nil
      rw [List.length_append] at hn
      exact line l r hline (ih r.length (by omega) r rfl)

/-- **The prologue is made of lines.** -/
theorem lines_prologue (s : Text) : ∃ r, s = prologue s ++ r ∧ Lines (prologue s) r := by
  induction s using prologueInduction with
  | stop s h =>
    rw [prologue_of_none h]
    exact ⟨s, rfl, .nil⟩
  | line l r hl ih =>
    obtain ⟨r', hr, hlines⟩ := ih
    rw [prologue_of_line hl]
    refine ⟨r', ?_, .cons (hr ▸ hl) hlines⟩
    rw [List.append_assoc, ← hr]

/-- The prologue goes on after any lines. -/
theorem Lines.prologue_append {a r : Text} (h : Lines a r) : prologue (a ++ r) = a ++ prologue r := by
  induction h with
  | nil => rfl
  | cons hl _ ih => rw [List.append_assoc, prologue_of_line hl, ih, List.append_assoc]

theorem Lines.append {a b r : Text} (ha : Lines a (b ++ r)) (hb : Lines b r) : Lines (a ++ b) r := by
  generalize hs : b ++ r = s at ha
  induction ha with
  | nil => exact hb
  | cons hl _ ih =>
    subst hs
    rw [List.append_assoc]
    exact .cons (by rwa [List.append_assoc]) (ih rfl)

/-- **The prologue reaches as far as lines lead.** -/
theorem prefix_prologue_iff {p s : Text} :
    p <+: prologue s ↔ ∃ a r, s = a ++ r ∧ Lines a r ∧ p <+: a := by
  constructor
  · intro h
    obtain ⟨r, hs, hlines⟩ := lines_prologue s
    exact ⟨prologue s, r, hs, hlines, h⟩
  · rintro ⟨a, r, rfl, hlines, hp⟩
    rw [hlines.prologue_append]
    exact hp.trans (List.prefix_append a _)

end SpinnerMarkup.Import
