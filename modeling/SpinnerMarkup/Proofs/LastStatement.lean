import SpinnerMarkup.Proofs.InsertedLine
import SpinnerMarkup.Proofs.StatementMention

/-! A declaration that is added becomes the last statement.

Statements run over several lines, so putting in a line can change what is read above it: an `import` that
was never finished, in a comment say, runs on into the new line. `Passes` says what a reader can make of a
text that ends a line, whatever follows: it has found its statement, it has given up, or it stands between
two items of a clause. A walk that stands there ends with the declaration (`scanFrom_reaches`), so the
declaration ends the last statement; the others are found where they were (`scanFrom_keeps`). The next
declaration therefore goes on the line below (`add_ends_statements`). -/
namespace SpinnerMarkup

/-- What holds no occurrence holds none from any place on. -/
theorem Pattern.isPlain_scanFrom_append {α : Type} (P : Pattern α) {before : Option Char} {x y : Text}
    (h : ∀ p ∈ P.scanFrom 0 before (x ++ y), Import.isPlain p = true) :
    ∀ p ∈ P.scanFrom 0 (x.getLast?.or before) y, Import.isPlain p = true := by
  induction x generalizing before with
  | nil => exact h
  | cons c x ih =>
    rw [getLast?_cons_or]
    rw [List.cons_append, scanFrom] at h
    split at h
    · exact absurd (h _ (List.mem_cons_self ..)) (by simp [Import.isPlain])
    · exact ih fun p hp => h p (List.mem_cons_of_mem _ hp)

namespace Import

open Text

/-! ### Across the end of a line -/

/-- What a reader makes of a text that ends a line, whatever follows. -/
inductive Passes (read : Text → Option Text) (x : Text) : Prop where
  | ended (u : Text) : (∀ z, read (x ++ z) = some u) → Passes read x
  | stopped : (∀ z, read (x ++ z) = none) → Passes read x
  | goesOn : (∀ z, read (x ++ z) = (clause? .clause z).map (x ++ ·)) → Passes read x

theorem Passes.append_left {read read' : Text → Option Text} {x y : Text} (h : Passes read x)
    (hread : ∀ z, read' (y ++ x ++ z) = (read (x ++ z)).map (y ++ ·)) : Passes read' (y ++ x) := by
  cases h with
  | ended u h =>
    refine .ended (y ++ u) fun z => ?_
    rw [hread, h]
    rfl
  | stopped h =>
    refine .stopped fun z => ?_
    rw [hread, h]
    rfl
  | goesOn h =>
    refine .goesOn fun z => ?_
    rw [hread, h, Option.map_map]
    simp [Function.comp_def]

theorem Passes.keeps {read : Text → Option Text} {x z u : Text} (h : Passes read x)
    (hread : read (x ++ z) = some u) (hu : u <+: x) (z' : Text) : read (x ++ z') = some u := by
  cases h with
  | ended v h => rw [h, ← hread, h]
  | stopped h =>
    rw [h] at hread
    cases hread
  | goesOn h =>
    rw [h] at hread
    obtain ⟨v, hv, rfl⟩ := Option.map_eq_some_iff.1 hread
    obtain ⟨body, spec, r, rfl, hspec⟩ := clause?_shape hv
    obtain ⟨q, m, q', r', -, rfl, -⟩ := specifier?_eq_some_iff.1 hspec
    have hlong := hu.length_le
    simp only [List.length_append, List.length_cons] at hlong
    omega

section LineEnd
variable {g : Text} (hg : ∀ c ∈ g, c = '\r')
include hg

theorem closing_append_feed (y z : Text) : closing (y ++ (g ++ '\n' :: z)) = closing y := by
  induction y with
  | nil =>
    cases g with
    | nil => rfl
    | cons c g =>
      obtain rfl := hg c (List.mem_cons_self ..)
      rfl
  | cons c y ih =>
    by_cases hc : isSpace c = true
    · have hcons : ∀ s, closing (c :: s) = c :: closing s := by
        intro s
        simp [closing, hc]
      rw [List.cons_append, hcons, ih, hcons]
    · simp [closing, hc]

/-- A specifier is read within its line. -/
theorem specifier?_append_feed (w z : Text) : specifier? (w ++ (g ++ '\n' :: z)) = specifier? w := by
  refine Option.ext fun t => ?_
  rw [specifier?_eq_some_iff, specifier?_eq_some_iff]
  constructor
  · intro h
    obtain ⟨q, m, q', r, hs, rfl, hq, hq', hne, hm⟩ := h
    have hfeed : '\n' ∉ q :: (m ++ [q']) := by
      intro hmem
      rcases List.mem_cons.1 hmem with hmem | hmem
      · exact (ne_of_isQuote hq).2.2.1 hmem.symm
      · rcases List.mem_append.1 hmem with hmem | hmem
        · exact absurd (hm _ hmem) (by decide)
        · exact (ne_of_isQuote hq').2.2.1 (List.mem_singleton.1 hmem).symm
    have hline : q :: (m ++ [q']) <+: w ++ g ++ '\n' :: z := ⟨r, by simpa using hs.symm⟩
    obtain ⟨k, hk⟩ := (prefix_append_mark_iff hfeed).1 hline
    -- the mark that closes the specifier is not one of the returns
    obtain ⟨y, rfl⟩ : ∃ y, w = q :: (m ++ q' :: y) := by
      rcases List.append_eq_append_iff.1 hk with ⟨j, hj, -⟩ | ⟨j, hj, hj'⟩
      · exact ⟨j, by simpa using hj⟩
      · rcases List.eq_nil_or_concat j with rfl | ⟨j, d, rfl⟩
        · exact ⟨[], by simpa using hj.symm⟩
        · rw [List.concat_eq_append, ← List.append_assoc, ← List.cons_append] at hj
          obtain ⟨hd, -⟩ := List.cons.inj (List.append_inj' hj rfl).2
          exact absurd (hd.trans (hg d (by simp [hj']))) (ne_of_isQuote hq').2.2.2.1
    obtain rfl : y ++ (g ++ '\n' :: z) = r := by simpa using hs
    refine ⟨q, m, q', y, rfl, ?_, hq, hq', hne, hm⟩
    rw [closing_append_feed hg]
  · intro h
    obtain ⟨q, m, q', r, rfl, rfl, hq, hq', hne, hm⟩ := h
    refine ⟨q, m, q', r ++ (g ++ '\n' :: z), by simp, ?_, hq, hq', hne, hm⟩
    rw [closing_append_feed hg]

end LineEnd

/-- At the end of a line a walk stands between two items. -/
theorem ClauseState.next?_feed {state state' : ClauseState} (h : state.next? '\n' = some state') :
    state' = .clause := by
  cases state with
  | clause => exact (Option.some.inj h).symm
  | slash => exact (Option.some.inj h).symm
  | comment => exact (Option.some.inj h).symm
  | string mark =>
    rw [next?] at h
    split at h
    · exact (Option.some.inj h).symm
    · cases h

/-- One character of a walk. -/
theorem clause?_cons (state : ClauseState) (c : Char) (s : Text) :
    clause? state (c :: s) = (if state = .clause then specifier? (c :: s) else none).or
      ((state.next? c).bind fun state => (clause? state s).map (c :: ·)) := by
  rw [clause?]
  cases (if state = .clause then specifier? (c :: s) else none) with
  | some t => rfl
  | none => cases state.next? c <;> rfl

/-- **What a walk makes of a text that ends a line.** -/
theorem passes_clause? (state : ClauseState) (w : Text) : Passes (clause? state) (w ++ ['\n']) := by
  induction w generalizing state with
  | nil =>
    have hread : ∀ z, clause? state ('\n' :: z) =
        (state.next? '\n').bind fun state => (clause? state z).map ('\n' :: ·) := by
      intro z
      rw [clause?_cons, specifier?_eq_none (by decide), ite_self, Option.none_or]
    cases hnext : state.next? '\n' with
    | none =>
      refine .stopped fun z => (hread z).trans ?_
      rw [hnext]
      rfl
    | some state' =>
      obtain rfl := ClauseState.next?_feed hnext
      refine .goesOn fun z => (hread z).trans ?_
      rw [hnext]
      rfl
  | cons c w ih =>
    have hread : ∀ z, clause? state (c :: w ++ ['\n'] ++ z) =
        (if state = .clause then specifier? (c :: w) else none).or
          ((state.next? c).bind fun state => (clause? state (w ++ ['\n'] ++ z)).map (c :: ·)) := by
      intro z
      have hline : specifier? (c :: (w ++ '\n' :: z)) = specifier? (c :: w) :=
        specifier?_append_feed (g := []) (by simp) (c :: w) z
      have hcons := clause?_cons state c (w ++ '\n' :: z)
      rw [hline] at hcons
      simpa using hcons
    cases hspec : (if state = .clause then specifier? (c :: w) else none) with
    | some t =>
      refine .ended t fun z => ?_
      rw [hread, hspec]
      rfl
    | none =>
      cases hnext : state.next? c with
      | none =>
        refine .stopped fun z => ?_
        rw [hread, hspec, hnext]
        rfl
      | some state' =>
        refine (ih state').append_left (y := [c]) fun z => ?_
        refine (hread z).trans ?_
        rw [hspec, hnext]
        rfl

theorem statement?_indented {indent : Text} (h : ∀ c ∈ indent, isSpace c = true) (c : Char) (s : Text) :
    statement? (indent ++ keyword ++ c :: s) =
      if opensClause c then (clause? .clause s).map (indent ++ keyword ++ c :: ·) else none := by
  have hafter : afterKeyword? (indent ++ keyword ++ c :: s) = some (c :: s) :=
    afterKeyword?_eq_some_iff.2 ⟨indent, rfl, h⟩
  have hindent : (indent ++ keyword ++ c :: s).takeWhile isSpace = indent := by
    rw [List.append_assoc]
    exact takeWhile_stop h (by decide) _
  rw [statement?, hafter]
  simp only [hindent]

/-- A statement that ends a text stays as it is when the line is ended. -/
theorem clause?_append_feed {g : Text} (hg : ∀ c ∈ g, c = '\r') {state : ClauseState} {w u : Text}
    (h : clause? state w = some u) (z : Text) : clause? state (w ++ (g ++ '\n' :: z)) = some u := by
  induction w generalizing state u with
  | nil => cases h
  | cons c w ih =>
    have hline : specifier? (c :: (w ++ (g ++ '\n' :: z))) = specifier? (c :: w) :=
      specifier?_append_feed hg (c :: w) z
    rw [List.cons_append, clause?_cons, hline]
    rw [clause?_cons] at h
    cases hspec : (if state = .clause then specifier? (c :: w) else none) with
    | some t =>
      rw [hspec] at h
      exact h
    | none =>
      rw [hspec, Option.none_or] at h
      obtain ⟨state', hnext, hmap⟩ := Option.bind_eq_some_iff.1 h
      obtain ⟨u', hu, rfl⟩ := Option.map_eq_some_iff.1 hmap
      rw [Option.none_or, hnext, Option.bind_some, ih hu]
      rfl

theorem statement?_append_feed {g : Text} (hg : ∀ c ∈ g, c = '\r') {w u : Text} (h : statement? w = some u)
    (z : Text) : statement? (w ++ (g ++ '\n' :: z)) = some u := by
  obtain ⟨p, rfl, r, rfl, hwalk⟩ := statement?_parts h
  have hsplit : p.text ++ r ++ (g ++ '\n' :: z) =
      p.indent ++ keyword ++ p.first :: (p.body ++ p.quoted ++ r ++ (g ++ '\n' :: z)) := by
    simp [Parts.text, Parts.clause]
  rw [hsplit, statement?_indented p.indent_space, if_pos p.first_opens, clause?_append_feed hg hwalk]
  simp [Parts.text, Parts.clause]

/-- **What is read of a statement in a text that ends a line.** -/
theorem passes_statement? (w : Text) : Passes statement? (w ++ ['\n']) := by
  by_cases h : ∃ indent s, w = indent ++ keyword ++ s ∧ ∀ c ∈ indent, isSpace c = true
  · obtain ⟨indent, s, rfl, hindent⟩ := h
    cases s with
    | nil =>
      refine .goesOn fun z => ?_
      have hread := statement?_indented hindent '\n' z
      rw [if_pos (by decide)] at hread
      simpa using hread
    | cons c s =>
      have hread := fun z => statement?_indented hindent c (s ++ ['\n'] ++ z)
      by_cases hc : opensClause c = true
      · have hpasses : Passes statement? (indent ++ keyword ++ [c] ++ (s ++ ['\n'])) :=
          (passes_clause? .clause s).append_left fun z => by simpa [hc] using hread z
        simpa using hpasses
      · refine .stopped fun z => ?_
        simpa [hc] using hread z
  · refine .stopped fun z => ?_
    have hnone : afterKeyword? (w ++ ['\n'] ++ z) = none := by
      refine Option.eq_none_iff_forall_ne_some.2 fun s hs => h ?_
      obtain ⟨indent, hline, hindent⟩ := afterKeyword?_eq_some_iff.1 hs
      have hfeed : '\n' ∉ indent ++ keyword := by
        intro hmem
        rcases List.mem_append.1 hmem with hmem | hmem
        · exact absurd (hindent _ hmem) (by decide)
        · exact absurd hmem (by decide)
      have hfront : indent ++ keyword <+: w ++ '\n' :: z := ⟨s, by simpa using hline.symm⟩
      obtain ⟨y, hy⟩ := (prefix_append_mark_iff hfeed).1 hfront
      exact ⟨indent, y, hy.symm, hindent⟩
    rw [statement?, hnone]

/-! ### Statements that a walk comes to -/

/-- What an import clause may hold is passed over. -/
theorem clause?_append {x : Text} (hx : ∀ c ∈ x, isForbidden c = false) (s : Text) :
    clause? .clause (x ++ s) = (clause? .clause s).map (x ++ ·) := by
  induction x with
  | nil => simp
  | cons c x ih =>
    obtain ⟨hc, hx⟩ := List.forall_mem_cons.1 hx
    have hquote : isQuote c = false := by
      simp only [isForbidden, Bool.or_eq_false_iff] at hc
      exact hc.2.1
    have hslash : c ≠ '/' := by
      intro heq
      rw [heq] at hc
      exact absurd hc (by decide)
    have hnext : ClauseState.next? .clause c = some .clause := by simp [ClauseState.next?, hslash, hquote, hc]
    rw [List.cons_append, clause?_cons, specifier?_eq_none hquote, ite_self, Option.none_or, hnext,
      Option.bind_some, ih hx, Option.map_map]
    rfl

theorem isForbidden_of_isBlank {c : Char} (h : isBlank c = true) : isForbidden c = false := by
  refine Bool.eq_false_iff.2 fun hc => ?_
  have hblank : isBlank c = false := by
    simp only [isForbidden, isQuote, Bool.or_eq_true, beq_iff_eq] at hc
    rcases hc with rfl | (rfl | rfl) | rfl | rfl | rfl | rfl | rfl | rfl | rfl <;> decide
  rw [h] at hblank
  cases hblank

/-- What a statement begins with can stand in a clause. -/
theorem Parts.isForbidden_opening (p : Parts) :
    ∀ c ∈ p.indent ++ keyword ++ [p.first], isForbidden c = false := by
  have hkeyword : (keyword.all fun c => !isForbidden c) = true := by decide
  intro c hc
  rw [List.append_assoc, List.mem_append, List.mem_append, List.mem_singleton] at hc
  rcases hc with hc | hc | rfl
  · have hspace := p.indent_space c hc
    simp only [isSpace, Bool.or_eq_true, beq_iff_eq] at hspace
    rcases hspace with rfl | rfl <;> decide
  · simpa using List.all_eq_true.1 hkeyword c hc
  · have hfirst := p.first_opens
    simp only [opensClause, Bool.or_eq_true, beq_iff_eq] at hfirst
    rcases hfirst with h | h | h
    · exact isForbidden_of_isBlank h
    · rw [h]
      decide
    · rw [h]
      decide

/-- **A walk that comes to a statement between two items ends with it.** -/
theorem clause?_of_statement? {s t : Text} (h : statement? s = some t) : clause? .clause s = some t := by
  obtain ⟨p, rfl, r, rfl, hwalk⟩ := statement?_parts h
  have hsplit : p.text ++ r = p.indent ++ keyword ++ [p.first] ++ (p.body ++ p.quoted ++ r) := by
    simp [Parts.text, Parts.clause]
  rw [hsplit, clause?_append p.isForbidden_opening, hwalk]
  simp [Parts.text, Parts.clause]

/-- **A declaration is a statement, whatever follows it.** -/
theorem statement?_declaration {m : Text} {symbols : List Text} (hne : m ≠ [])
    (hm : ∀ c ∈ m, inSpecifier c = true) (h : ∀ t ∈ symbols, ∀ c ∈ t, isForbidden c = false) (r : Text) :
    statement? (declaration m symbols ++ r) = some (declaration m symbols) := by
  have hfrom : (fromWord.all fun c => !isForbidden c) = true := by decide
  have hlisting : ∀ c ∈ listing symbols, isForbidden c = false := forall_mem_listing (by decide) (by decide) h
  have hplain : ∀ c ∈ '\x7b' :: (listing symbols ++ ['\x7d', ' ']) ++ fromWord ++ [' '],
      isForbidden c = false := by
    simp only [List.forall_mem_append, List.forall_mem_cons]
    exact ⟨⟨⟨by decide, hlisting, by decide, by decide, by simp⟩, by simpa using hfrom⟩, by decide, by simp⟩
  have hspec : clause? .clause (doubleQuote :: (m ++ doubleQuote :: ';' :: r)) =
      some (doubleQuote :: (m ++ [doubleQuote, ';'])) := by
    rw [clause?_cons, if_pos rfl, specifier?_eq_some_iff.2
      ⟨doubleQuote, m, doubleQuote, ';' :: r, rfl, rfl, by decide, by decide, hne, hm⟩]
    rfl
  have hsplit : declaration m symbols ++ r = [] ++ keyword ++ ' ' ::
      ('\x7b' :: (listing symbols ++ ['\x7d', ' ']) ++ fromWord ++ [' '] ++
        doubleQuote :: (m ++ doubleQuote :: ';' :: r)) := by
    rw [declaration_eq]
    simp
  rw [hsplit, statement?_indented (by simp), if_pos (by decide), clause?_append hplain, hspec, declaration_eq]
  simp

/-! ### The scan of a text with a declaration put in -/

theorem statementPattern_read?_eq_none_iff {before : Option Char} {s : Text} :
    statementPattern.read? before s = none ↔ (atLineStart before = true → statement? s = none) := by
  show (if atLineStart before then statement? s else none) = none ↔ _
  by_cases h : atLineStart before = true <;> simp [h]

/-- What ends at a line start ends a line, unless it is empty. -/
theorem exists_feed_of_atLineStart {x : Text} {before : Option Char} (hx : x ≠ [])
    (h : atLineStart (x.getLast?.or before) = true) : ∃ w, x = w ++ ['\n'] := by
  have hlast : x.getLast?.or before = x.getLast? := by
    rw [List.getLast?_eq_some_getLast hx]
    rfl
  rw [hlast] at h
  exact (atLineStart_iff.1 h).resolve_left hx

/-- Some of the pieces make up `front` and end with a statement; the others follow. -/
def Reaches (pieces : List (Piece Text)) (front : Text) (others : List (Piece Text)) : Prop :=
  ∃ ps t, pieces = ps ++ .found t :: others ∧ ps.flatMap statementPattern.pieceSource ++ t = front

theorem Reaches.scanFrom {before : Option Char} {p : Piece Text} {r front : Text} {others : List (Piece Text)}
    (hread : statementPattern.read? before (statementPattern.pieceSource p ++ r) = p.found?)
    (h : Reaches (statementPattern.scanFrom 0 ((statementPattern.pieceSource p).getLast?.or before) r) front
      others) :
    Reaches (statementPattern.scanFrom 0 before (statementPattern.pieceSource p ++ r))
      (statementPattern.pieceSource p ++ front) others := by
  obtain ⟨ps, t, hscan, rfl⟩ := h
  refine ⟨p :: ps, t, ?_, List.append_assoc ..⟩
  rw [statementPattern.scanFrom_of_read? hread, hscan]
  rfl

/-- A statement that begins here and ends with `t`. -/
theorem reaches_of_statement {x t r : Text} {before : Option Char} (hne : t ≠ [])
    (hstart : atLineStart before = true) (h : statement? (x ++ t ++ r) = some (x ++ t)) :
    Reaches (statementPattern.scanFrom 0 before (x ++ (t ++ r))) (x ++ t)
      (statementPattern.scanFrom 0 t.getLast? r) := by
  have hlast : (x ++ t).getLast?.or before = t.getLast? := by
    rw [List.getLast?_append, List.getLast?_eq_some_getLast hne]
    rfl
  have hscan := statementPattern.scanFrom_of_read? (p := .found (x ++ t))
    (statementPattern_read?_eq_some_iff.2 ⟨hstart, h⟩)
  refine ⟨[], x ++ t, ?_, rfl⟩
  rw [← List.append_assoc, ← hlast]
  exact hscan

/-- **A statement that follows whole lines is found, or it ends the one that runs into it.** -/
theorem scanFrom_reaches {t r : Text} (ht : statement? (t ++ r) = some t) {s : Text} {before : Option Char}
    (hs : atLineStart (s.getLast?.or before) = true) :
    Reaches (statementPattern.scanFrom 0 before (s ++ (t ++ r))) (s ++ t)
      (statementPattern.scanFrom 0 t.getLast? r) := by
  induction hn : s.length using Nat.strong_induction_on generalizing s before with
  | _ n ih =>
    subst hn
    cases s with
    | nil => exact reaches_of_statement (x := []) (statement?_ne_nil ht) hs ht
    | cons c s =>
      have hskip (hread : statementPattern.read? before (c :: s ++ (t ++ r)) = none) :
          Reaches (statementPattern.scanFrom 0 before (c :: s ++ (t ++ r))) (c :: s ++ t)
            (statementPattern.scanFrom 0 t.getLast? r) := by
        rw [Pattern.getLast?_cons_or] at hs
        exact .scanFrom (p := .plain c) hread (ih s.length (by simp) hs rfl)
      by_cases hstart : atLineStart before = true
      · obtain ⟨w, hw⟩ := exists_feed_of_atLineStart (List.cons_ne_nil c s) hs
        have hpasses := passes_statement? w
        rw [← hw] at hpasses
        cases hpasses with
        | ended u hu =>
          -- it ends above `t`, and the scan goes on from there
          obtain ⟨x, hx⟩ := statement?_front (hu [])
          rw [List.append_nil] at hx
          have hshort : x.length < (c :: s).length := by
            rw [hx, List.length_append]
            exact Nat.lt_add_of_pos_left (List.length_pos_iff.2 (statement?_ne_nil (hu [])))
          rw [hx, List.getLast?_append, Option.or_assoc] at hs
          rw [hx] at hu ⊢
          rw [List.append_assoc, List.append_assoc]
          refine .scanFrom (p := .found u) (statementPattern_read?_eq_some_iff.2 ⟨hstart, ?_⟩)
            (ih x.length hshort hs rfl)
          show statement? (u ++ (x ++ (t ++ r))) = some u
          rw [← List.append_assoc]
          exact hu (t ++ r)
        | stopped hnone => exact hskip (statementPattern_read?_eq_none_iff.2 fun _ => hnone (t ++ r))
        | goesOn hon =>
          refine reaches_of_statement (statement?_ne_nil ht) hstart ?_
          rw [List.append_assoc, hon, clause?_of_statement? ht]
          rfl
      · exact hskip (statementPattern_read?_eq_none_iff.2 fun h => absurd h hstart)

/-- What is read in whole lines before a statement does not depend on what follows it. -/
theorem read?_keeps {t r r' x : Text} {before : Option Char} {o : Option Text}
    (ht : statement? (t ++ r) = some t) (hx : x ≠ []) (hs : atLineStart (x.getLast?.or before) = true)
    (h : statementPattern.read? before (x ++ (t ++ r)) = o) (ho : ∀ u, o = some u → u <+: x) :
    statementPattern.read? before (x ++ (t ++ r')) = o := by
  by_cases hstart : atLineStart before = true
  · have hread : ∀ s, statementPattern.read? before s = statement? s := fun s => if_pos hstart
    rw [hread] at h ⊢
    obtain ⟨w, rfl⟩ := exists_feed_of_atLineStart hx hs
    cases passes_statement? w with
    | ended u hu => rw [hu, ← h, hu]
    | stopped hnone => rw [hnone, ← h, hnone]
    | goesOn hon =>
      rw [hon, clause?_of_statement? ht] at h
      have hlong := (ho _ h.symm).length_le
      have hpos := List.length_pos_iff.2 (statement?_ne_nil ht)
      rw [List.length_append] at hlong
      omega
  · have hnone : ∀ s, statementPattern.read? before s = none := fun s => if_neg hstart
    rw [hnone, ← h, hnone]

/-- **What is found before a statement does not depend on what follows it.** -/
theorem scanFrom_keeps {t r r' : Text} (ht : statement? (t ++ r) = some t)
    (ht' : statement? (t ++ r') = some t) {before : Option Char} {ps qs : List (Piece Text)}
    (hs : atLineStart ((ps.flatMap statementPattern.pieceSource).getLast?.or before) = true)
    (h : statementPattern.scanFrom 0 before (ps.flatMap statementPattern.pieceSource ++ (t ++ r)) =
      ps ++ .found t :: qs) :
    ∃ qs', statementPattern.scanFrom 0 before (ps.flatMap statementPattern.pieceSource ++ (t ++ r')) =
      ps ++ .found t :: qs' := by
  induction ps generalizing before with
  | nil => exact ⟨_, statementPattern.scanFrom_of_read? (p := .found t)
      (statementPattern_read?_eq_some_iff.2 ⟨hs, ht'⟩)⟩
  | cons p ps ih =>
    obtain ⟨x, hx, hread, hqs⟩ := statementPattern.scanFrom_eq_cons h
    rw [List.flatMap_cons, List.append_assoc] at hx
    obtain rfl := List.append_cancel_left hx
    have hne : (p :: ps).flatMap statementPattern.pieceSource ≠ [] := by
      cases p with
      | plain c => exact List.cons_ne_nil c _
      | found u => exact List.append_ne_nil_of_left_ne_nil (statementPattern.source_ne_nil hread) _
    have hfound : ∀ u, p.found? = some u → u <+: (p :: ps).flatMap statementPattern.pieceSource := by
      intro u hu
      cases p with
      | plain c => cases hu
      | found v =>
        obtain rfl := Option.some.inj hu
        exact List.prefix_append _ _
    have hread' : statementPattern.read? before
        ((p :: ps).flatMap statementPattern.pieceSource ++ (t ++ r')) = p.found? :=
      read?_keeps ht hne hs hread hfound
    rw [List.flatMap_cons, List.getLast?_append, Option.or_assoc] at hs
    obtain ⟨qs', hqs'⟩ := ih hs hqs.symm
    rw [List.flatMap_cons, List.append_assoc] at hread' ⊢
    refine ⟨qs', ?_⟩
    rw [statementPattern.scanFrom_of_read? hread', hqs']
    rfl

/-! ### The text below the declaration -/

/-- No statement is found below the place for a declaration. -/
theorem isPlain_scanFrom_place (s : Text) :
    ∀ p ∈ statementPattern.scanFrom 0 (place s).before.getLast? (place s).after, isPlain p = true := by
  by_cases h : statementPattern.occurrences s = []
  · obtain ⟨hbefore, hs, -⟩ := place_of_no_statement h
    have hplain : ∀ p ∈ statementPattern.scan s, isPlain p = true := by
      intro p hp
      have hall := List.dropWhile_eq_nil_iff.1 (dropWhile_isPlain_eq_nil_iff.2 h)
      exact hall p (List.mem_reverse.2 hp)
    rw [hs] at hplain
    have hrest := statementPattern.isPlain_scanFrom_append hplain
    rwa [Option.or_none, ← hbefore] at hrest
  · obtain ⟨ps, t, qs, hscan, hqs⟩ := exists_last_statement h
    have hplace := place_of_scan_eq hscan hqs
    rw [← List.singleton_append, ← List.append_assoc] at hscan
    have hrest := statementPattern.scanFrom_eq_append hscan
    have hbefore : (ps ++ [Piece.found t]).flatMap statementPattern.pieceSource =
        ps.flatMap statementPattern.pieceSource ++ t := by
      rw [List.flatMap_append, List.flatMap_singleton]
      rfl
    rw [hrest, Option.or_none, hbefore, ← afterLine_split (qs.flatMap statementPattern.pieceSource)] at hqs
    have hplain := statementPattern.isPlain_scanFrom_append hqs
    rw [← List.getLast?_append] at hplain
    rw [hplace]
    exact hplain

theorem lineEnd_eq (s : Text) : ∃ g, lineEnd s = g ++ ['\n'] ∧ ∀ c ∈ g, c = '\r' := by
  unfold lineEnd
  split
  · exact ⟨['\r'], rfl, by simp⟩
  · exact ⟨[], rfl, by simp⟩

/-- Nor on the line of the declaration after it, nor below. -/
theorem isPlain_scanFrom_lineEnd (s : Text) :
    ∀ p ∈ statementPattern.scanFrom 0 (some ';') (lineEnd s ++ (place s).after), isPlain p = true := by
  have hbelow : ∀ p ∈ statementPattern.scanFrom 0 (some '\n') (place s).after, isPlain p = true := by
    have hplain := isPlain_scanFrom_place s
    rcases place_between s with hnil | hfeed | hnil
    · rw [hnil] at hplain
      -- the start of a text is the start of a line
      have hstart : statementPattern.scanFrom 0 (some '\n') (place s).after =
          statementPattern.scanFrom 0 none (place s).after := by
        cases (place s).after <;> rfl
      rwa [hstart]
    · rwa [hfeed] at hplain
    · rw [hnil]
      simp [Pattern.scanFrom]
  have hpass : ∀ {b c : Char} {r : Text}, b ≠ '\n' →
      (∀ p ∈ statementPattern.scanFrom 0 (some c) r, isPlain p = true) →
      ∀ p ∈ statementPattern.scanFrom 0 (some b) (c :: r), isPlain p = true := by
    intro b c r hb hr
    have hread : statementPattern.read? (some b) (c :: r) = none :=
      statementPattern_read?_eq_none_iff.2 fun h => absurd h (by simpa [atLineStart] using hb)
    have hscan := statementPattern.scanFrom_of_read? (p := .plain c) hread
    rw [show statementPattern.scanFrom 0 (some b) (c :: r) = _ from hscan]
    exact List.forall_mem_cons.2 ⟨rfl, hr⟩
  unfold lineEnd
  split
  · exact hpass (by decide) (hpass (by decide) hbelow)
  · exact hpass (by decide) hbelow

/-! ### The last statement -/

/-- A statement is found after `front`. -/
def FoundAfter (source front t : Text) : Prop :=
  ∃ ps qs, statementPattern.scan source = ps ++ .found t :: qs ∧
    ps.flatMap statementPattern.pieceSource = front

theorem lastStatementEnds_of_reaches {text front : Text} {others : List (Piece Text)}
    (h : Reaches (statementPattern.scan text) front others) (hothers : ∀ p ∈ others, isPlain p = true) :
    LastStatementEnds text front := by
  obtain ⟨ps, t, hscan, hfront⟩ := h
  exact ⟨ps, t, others, hscan, hothers, hfront.symm⟩

/-- The place below a last statement that a line end follows. -/
theorem LastStatementEnds.place_eq {text front eol b : Text} (h : LastStatementEnds text front) (s : Text)
    (heol : lineEnd s = eol) (htext : text = front ++ eol ++ b) : place text = ⟨front ++ eol, b⟩ := by
  obtain ⟨ps, t, qs, hscan, hqs, rfl⟩ := h
  obtain ⟨hsource, -⟩ := statement_of_scan_eq hscan
  obtain ⟨g, hg, hreturn⟩ := lineEnd_eq s
  have hrest : qs.flatMap statementPattern.pieceSource = g ++ '\n' :: b := by
    rw [htext, ← heol, hg] at hsource
    simpa using hsource.symm
  have hfeed : '\n' ∉ g := fun hmem => absurd (hreturn _ hmem) (by decide)
  rw [place_of_scan_eq hscan hqs, hrest, afterLine_append hfeed, ← heol, hg]

/-- A statement stays as it is when a line is put in below its own. -/
theorem statement?_above_line {t x b : Text} (h : statement? (t ++ (x ++ b)) = some t)
    (hx : x.getLast? = some '\n' ∨ b = []) (w s z : Text) :
    statement? (t ++ (x ++ (separator (w ++ t ++ x) (lineEnd s) ++ z))) = some t := by
  have hne := statement?_ne_nil h
  unfold separator
  split
  · next hends =>
    have hstart : atLineStart ((t ++ x).getLast?.or w.getLast?) = true := by
      rw [← List.getLast?_append, ← List.append_assoc, hends.resolve_left (by simp [hne])]
      rfl
    obtain ⟨v, hv⟩ := exists_feed_of_atLineStart (List.append_ne_nil_of_left_ne_nil hne x) hstart
    rw [← List.append_assoc, hv] at h ⊢
    exact (passes_statement? v).keeps h (hv ▸ List.prefix_append t x) _
  · next hopen =>
    rw [not_or] at hopen
    obtain rfl : b = [] := hx.resolve_left fun hfeed => hopen.2 (by simp [List.getLast?_append, hfeed])
    obtain ⟨g, hg, hreturn⟩ := lineEnd_eq s
    rw [List.append_nil] at h
    rw [hg]
    simpa using statement?_append_feed hreturn h z

/-- Two ways to split pieces at a statement: the one that leaves no further statement is the longer. -/
theorem prefix_of_split {ps qs ps' qs' : List (Piece Text)} {t t' : Text}
    (h : ps ++ .found t :: qs = ps' ++ .found t' :: qs') (hplain : ∀ p ∈ qs', isPlain p = true) :
    ps ++ [.found t] <+: ps' ++ [.found t'] := by
  rw [← List.singleton_append, ← List.append_assoc, ← List.singleton_append (l := qs'),
    ← List.append_assoc] at h
  rcases List.append_eq_append_iff.1 h with ⟨k, hk, -⟩ | ⟨k, hk, rfl⟩
  · exact ⟨k, hk.symm⟩
  · rcases List.eq_nil_or_concat k with rfl | ⟨k, p, rfl⟩
    · exact ⟨[], by simpa using hk⟩
    · rw [List.concat_eq_append, ← List.append_assoc] at hk
      obtain ⟨rfl, -⟩ := List.cons.inj (List.append_inj' hk rfl).2
      exact absurd (hplain (.found t) (by simp)) (by simp [isPlain])

/-- **The statements of a text are found where they were, above the line put in.** -/
theorem FoundAfter.insertLine {source front t : Text} (h : FoundAfter source front t) (line : Text) :
    FoundAfter ((place source).insertLine (lineEnd source) line) front t ∧
      front ++ t <+: (place source).before := by
  obtain ⟨ps, qs, hscan, rfl⟩ := h
  have hsome : statementPattern.occurrences source ≠ [] := by
    simp [Pattern.occurrences, hscan, Piece.found?]
  obtain ⟨ps', t', qs', hscan', hqs'⟩ := exists_last_statement hsome
  obtain ⟨k, hk⟩ := prefix_of_split (hscan.symm.trans hscan') hqs'
  obtain ⟨hsource, hstart, hstatement⟩ := statement_of_scan_eq hscan'
  have hplace := place_of_scan_eq hscan' hqs'
  have hline := afterLine_split (qs'.flatMap statementPattern.pieceSource)
  have hfront : ps.flatMap statementPattern.pieceSource ++ t ++ k.flatMap statementPattern.pieceSource =
      ps'.flatMap statementPattern.pieceSource ++ t' := by
    have hpieces := congrArg (List.flatMap statementPattern.pieceSource) hk
    rw [List.flatMap_append, List.flatMap_append, List.flatMap_append, List.flatMap_singleton,
      List.flatMap_singleton] at hpieces
    exact hpieces
  constructor
  · rw [← hline] at hstatement hsource
    have hkept := statement?_above_line hstatement (afterLine_ends _)
      (ps'.flatMap statementPattern.pieceSource) source (line ++ lineEnd source ++ (place source).after)
    rw [Pattern.scan, hsource] at hscan'
    obtain ⟨others, hothers⟩ := scanFrom_keeps hstatement hkept (by rwa [Option.or_none]) hscan'
    have hpieces : ps' ++ .found t' :: others = ps ++ .found t :: (k ++ others) := by
      have hsplit := congrArg (· ++ others) hk
      simpa using hsplit.symm
    refine ⟨ps, k ++ others, ?_, rfl⟩
    rw [← hpieces, ← hothers, insertLine_eq, hplace]
    simp [Pattern.scan]
  · rw [hplace, List.append_assoc]
    refine List.IsPrefix.trans ⟨_, hfront⟩ ?_
    rw [← List.append_assoc]
    exact List.prefix_append _ _

theorem separator_lineEnd (x s eol : Text) : separator (x ++ lineEnd s) eol = [] := by
  obtain ⟨g, hg, -⟩ := lineEnd_eq s
  refine if_pos (.inr ?_)
  rw [hg, ← List.append_assoc, List.getLast?_append]
  rfl

/-- **A declaration put in ends the last statement.** -/
theorem lastStatementEnds_insertLine (source : Text) {m : Text} {symbols : List Text} (hne : m ≠ [])
    (hm : ∀ c ∈ m, inSpecifier c = true) (hsymbols : ∀ t ∈ symbols, ∀ c ∈ t, isForbidden c = false) :
    LastStatementEnds ((place source).insertLine (lineEnd source) (declaration m symbols))
      ((place source).before ++ separator (place source).before (lineEnd source) ++
        declaration m symbols) := by
  have hdeclaration := statement?_declaration hne hm hsymbols (lineEnd source ++ (place source).after)
  have hstart : atLineStart (((place source).before ++
      separator (place source).before (lineEnd source)).getLast?.or none) = true := by
    rw [Option.or_none]
    exact atLineStart_separator _ source
  have hreaches := scanFrom_reaches hdeclaration hstart
  rw [getLast?_declaration] at hreaches
  refine lastStatementEnds_of_reaches ?_ (isPlain_scanFrom_lineEnd source)
  rw [insertLine_eq]
  simpa [Pattern.scan] using hreaches

theorem isForbidden_symbol (c : Component) : ∀ d ∈ c.symbol, isForbidden d = false := by
  have h : (c.symbol.all fun d => !isForbidden d) = true := by cases c <;> decide
  simpa using h

/-- **A declaration that is added becomes the last statement**: the last statement found ends with it, those
found before are found where they were, above it, and the next declaration goes on the line below. -/
theorem add_ends_statements (refusals : Refusals) (source m text : Text) (symbols : List Text)
    (hne : m ≠ []) (hm : ∀ c ∈ m, inSpecifier c = true)
    (hsymbols : ∀ t ∈ symbols, ∀ c ∈ t, isForbidden c = false)
    (hadd : add refusals source m symbols = .ok (some text)) :
    ∃ a b eol, PutsLine source (declaration m symbols) text a b eol ∧
      LastStatementEnds text (a ++ separator a eol ++ declaration m symbols) ∧
      (∀ front t, FoundAfter source front t → FoundAfter text front t ∧ front ++ t <+: a) ∧
      ∀ m' symbols', recognise refusals text m' = .ok false →
        add refusals text m' symbols' = .ok (some (a ++ separator a eol ++ declaration m symbols ++ eol ++
          declaration m' symbols' ++ lineEnd text ++ b)) := by
  obtain ⟨-, rfl⟩ := add_eq_ok_some_iff.1 hadd
  have hputs := putsLine_insertLine source (declaration m symbols)
  have hlast := lastStatementEnds_insertLine source hne hm hsymbols
  refine ⟨_, _, _, hputs, hlast, fun front t h => h.insertLine _, fun m' symbols' hmissing => ?_⟩
  refine add_eq_ok_some_iff.2 ⟨hmissing, ?_⟩
  have hplace := hlast.place_eq source rfl hputs.text
  rw [insertLine_eq, hplace, separator_lineEnd]
  simp

/-- An import that is never finished, in a comment. -/
def openImport : Text := "/*\nimport x\n*/\nf();\n".toList

/-- What `openImport` becomes with one component. -/
def openImportRunOn : Text :=
  "/*\nimport x\n*/\nimport \x7b LoadingCentered \x7d from \"m\";\nf();\n".toList

/-- It runs on into the declaration and ends with it. -/
theorem openImport_runs_on :
    ['m'] ≠ [] ∧ (∀ c ∈ ['m'], inSpecifier c = true) ∧
      (∀ t ∈ [Component.centered.symbol], ∀ c ∈ t, isForbidden c = false) ∧
      add noRefusals openImport ['m'] [Component.centered.symbol] = .ok (some openImportRunOn) ∧
      statementPattern.occurrences openImportRunOn =
        ["import x\n*/\nimport \x7b LoadingCentered \x7d from \"m\";".toList] ∧
      recognise noRefusals openImportRunOn ['n'] = .ok false ∧
      ∃ a b eol, PutsLine openImport (declaration ['m'] [Component.centered.symbol]) openImportRunOn a b eol ∧
        LastStatementEnds openImportRunOn
          (a ++ separator a eol ++ declaration ['m'] [Component.centered.symbol]) ∧
        add noRefusals openImportRunOn ['n'] [Component.inline.symbol] =
          .ok (some (a ++ separator a eol ++ declaration ['m'] [Component.centered.symbol] ++ eol ++
            declaration ['n'] [Component.inline.symbol] ++ lineEnd openImportRunOn ++ b)) := by
  have hne : ['m'] ≠ [] := by decide
  have hm : ∀ c ∈ ['m'], inSpecifier c = true := List.all_eq_true.1 (by decide)
  have hsymbols : ∀ t ∈ [Component.centered.symbol], ∀ c ∈ t, isForbidden c = false := by
    intro t ht
    obtain rfl := List.mem_singleton.1 ht
    exact isForbidden_symbol .centered
  have hadd : add noRefusals openImport ['m'] [Component.centered.symbol] =
      .ok (some openImportRunOn) := by decide +kernel
  have hmissing : recognise noRefusals openImportRunOn ['n'] = .ok false := by decide +kernel
  obtain ⟨a, b, eol, hputs, hlast, -, hnext⟩ := add_ends_statements _ _ _ _ _ hne hm hsymbols hadd
  exact ⟨hne, hm, hsymbols, hadd, by decide +kernel, hmissing, a, b, eol, hputs, hlast,
    hnext ['n'] [Component.inline.symbol] hmissing⟩

end Import
end SpinnerMarkup
