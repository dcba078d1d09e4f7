import SpinnerMarkup.Proofs.Mention

/-! Import statements and the modules they name.

A statement is found by one recogniser and an import of a module by another. `statement?_parts` gives
the parts of a statement: its clause, and the specifier that is quoted last. The clause may hold
comments and strings, and it need not begin with a blank; the other recogniser knows none of that.
`lineImports_statement_iff` makes the difference exact, and `add_of_statement_iff` says what it means
for a text with a statement that names the module: for a module with its pattern, a second declaration is
kept out exactly when the clause of the statement is plain up to a quoted name of the module, or another
line imports the module. `remarkedImport_repeated` is a text that gets a second declaration. -/
namespace SpinnerMarkup

/-! ### Where an occurrence stands -/

namespace Pattern
variable {α : Type} (P : Pattern α)

theorem getLast?_cons_or (c : Char) (l : Text) (before : Option Char) :
    (c :: l).getLast?.or before = l.getLast?.or (some c) := by
  rw [List.getLast?_cons]
  cases l.getLast? <;> rfl

theorem scanFrom_length_append (x r : Text) (before : Option Char) :
    P.scanFrom x.length before (x ++ r) = P.scanFrom 0 (x.getLast?.or before) r := by
  induction x generalizing before with
  | nil => rfl
  | cons c x ih =>
    rw [getLast?_cons_or]
    exact ih (some c)

/-- A scan goes on right after the piece it begins with. -/
theorem scanFrom_of_read? {before : Option Char} {p : Piece α} {r : Text}
    (h : P.read? before (P.pieceSource p ++ r) = p.found?) :
    P.scanFrom 0 before (P.pieceSource p ++ r) =
      p :: P.scanFrom 0 ((P.pieceSource p).getLast?.or before) r := by
  cases p with
  | plain c =>
    show P.scanFrom 0 before (c :: r) = _
    rw [scanFrom, show P.read? before (c :: r) = none from h]
    rfl
  | found a =>
    have hread : P.read? before (P.source a ++ r) = some a := h
    obtain ⟨c, w, hw⟩ := List.exists_cons_of_ne_nil (P.source_ne_nil hread)
    rw [hw, List.cons_append] at hread
    rw [pieceSource, hw, List.cons_append, scanFrom, hread, getLast?_cons_or, ← scanFrom_length_append]
    simp only [hw, List.length_cons, Nat.add_sub_cancel]

/-- The first piece of a scan is what is read at its start. -/
theorem scanFrom_eq_cons {before : Option Char} {s : Text} {p : Piece α} {qs : List (Piece α)}
    (h : P.scanFrom 0 before s = p :: qs) :
    ∃ r, s = P.pieceSource p ++ r ∧ P.read? before s = p.found? ∧
      qs = P.scanFrom 0 ((P.pieceSource p).getLast?.or before) r := by
  obtain ⟨p', r, hs, hread⟩ : ∃ p' r, s = P.pieceSource p' ++ r ∧ P.read? before s = p'.found? := by
    cases hread : P.read? before s with
    | some a =>
      obtain ⟨r, hr⟩ := P.source_front hread
      exact ⟨.found a, r, hr, rfl⟩
    | none =>
      cases s with
      | nil => cases h
      | cons c s => exact ⟨.plain c, s, rfl, rfl⟩
  rw [hs] at hread h
  rw [P.scanFrom_of_read? hread] at h
  obtain ⟨rfl, rfl⟩ := List.cons.inj h
  exact ⟨r, hs, by rw [hs, hread], rfl⟩

/-- The rest of a scan is the scan of the rest. -/
theorem scanFrom_eq_append {before : Option Char} {s : Text} {ps qs : List (Piece α)}
    (h : P.scanFrom 0 before s = ps ++ qs) :
    qs = P.scanFrom 0 ((ps.flatMap P.pieceSource).getLast?.or before) (qs.flatMap P.pieceSource) := by
  induction ps generalizing before s with
  | nil =>
    obtain rfl : P.scanFrom 0 before s = qs := h
    rw [flatMap_source_scanFrom]
    rfl
  | cons p ps ih =>
    obtain ⟨r, -, -, hr⟩ := P.scanFrom_eq_cons h
    have hrest := ih hr.symm
    rwa [← Option.or_assoc, ← List.getLast?_append] at hrest

/-- An occurrence of a scan is read where it stands. -/
theorem read?_of_scan_eq {s : Text} {ps qs : List (Piece α)} {a : α}
    (h : P.scan s = ps ++ .found a :: qs) :
    P.read? (ps.flatMap P.pieceSource).getLast? (P.source a ++ qs.flatMap P.pieceSource) = some a := by
  obtain ⟨r, -, hread, -⟩ := P.scanFrom_eq_cons (P.scanFrom_eq_append h).symm
  rw [Option.or_none] at hread
  exact hread

end Pattern

namespace Import

open Text
open Element (Blanks)

/-! ### The parts of a statement -/

/-- The text between the last two quotation marks, and what stands before them. -/
def lastQuoted (t : Text) : Text × Text :=
  let back := (t.reverse.dropWhile (!isQuote ·)).drop 1
  ((back.takeWhile (!isQuote ·)).reverse, ((back.dropWhile (!isQuote ·)).drop 1).reverse)

/-- The specifier of a statement: what it quotes last. -/
def specifierOf (t : Text) : Text := (lastQuoted t).1

/-- The clause of a statement: what stands between `import` and the specifier. -/
def clauseOf (t : Text) : Text := (afterKeyword? (lastQuoted t).2).getD []

theorem lastQuoted_eq {a m tail : Text} {q q' : Char} (hq : isQuote q = true) (hq' : isQuote q' = true)
    (hm : ∀ c ∈ m, isQuote c = false) (htail : ∀ c ∈ tail, isQuote c = false) :
    lastQuoted (a ++ q :: (m ++ q' :: tail)) = (m, a) := by
  have hrev : (a ++ q :: (m ++ q' :: tail)).reverse =
      tail.reverse ++ q' :: (m.reverse ++ q :: a.reverse) := by simp
  have hm' : ∀ c ∈ m.reverse, (!isQuote c) = true := fun c hc => by simp [hm c (List.mem_reverse.1 hc)]
  have htail' : ∀ c ∈ tail.reverse, (!isQuote c) = true :=
    fun c hc => by simp [htail c (List.mem_reverse.1 hc)]
  simp only [lastQuoted, hrev, List.dropWhile_append_of_pos htail']
  simp [hq', List.dropWhile_append_of_pos hm', List.takeWhile_append_of_pos hm', hq]

/-- What closes a statement after its specifier: spaces and a semicolon, as far as they are there. -/
def closing (r : Text) : Text :=
  r.takeWhile isSpace ++ ((r.dropWhile isSpace).head?.filter (· == ';')).toList

theorem mem_closing {r : Text} {c : Char} (h : c ∈ closing r) : isSpace c = true ∨ c = ';' := by
  rcases List.mem_append.1 h with h | h
  · exact .inl (List.mem_takeWhile_imp h)
  · obtain ⟨-, hc⟩ := Option.filter_eq_some_iff.1 (Option.mem_toList.1 h)
    exact .inr (by simpa using hc)

theorem isQuote_of_closes {c : Char} (h : isSpace c = true ∨ c = ';') : isQuote c = false := by
  rcases h with hc | rfl
  · simp only [isSpace, Bool.or_eq_true, beq_iff_eq] at hc
    rcases hc with rfl | rfl <;> decide
  · decide

/-- **A specifier is a text within one line between two quotation marks, and is not empty.** -/
theorem specifier?_eq_some_iff {s t : Text} :
    specifier? s = some t ↔ ∃ q m q' r, s = q :: (m ++ q' :: r) ∧ t = q :: (m ++ q' :: closing r) ∧
      isQuote q = true ∧ isQuote q' = true ∧ m ≠ [] ∧ ∀ c ∈ m, inSpecifier c = true := by
  constructor
  · intro h
    cases s with
    | nil => cases h
    | cons q s =>
      rw [specifier?] at h
      split at h
      · next hopen =>
        obtain ⟨hq, hhead⟩ := Bool.and_eq_true_iff.1 hopen
        split at h
        · cases h
        · next q' r hdrop =>
          split at h
          · next hq' =>
            obtain rfl := Option.some.inj h
            refine ⟨q, s.takeWhile inSpecifier, q', r, ?_, by simp [closing], hq, hq', ?_,
              fun c hc => List.mem_takeWhile_imp hc⟩
            · rw [← hdrop, List.takeWhile_append_dropWhile]
            · cases s with
              | nil => cases hhead
              | cons c s => simp [List.takeWhile_cons_of_pos (show inSpecifier c = true from hhead)]
          · cases h
      · cases h
  · rintro ⟨q, m, q', r, rfl, rfl, hq, hq', hne, hm⟩
    have hstop : ¬ inSpecifier q' = true := by simp [inSpecifier, hq']
    have hhead : (m ++ q' :: r).head?.any inSpecifier = true := by
      obtain ⟨c, w, rfl⟩ := List.exists_cons_of_ne_nil hne
      exact hm c (List.mem_cons_self ..)
    rw [specifier?, if_pos (by rw [hq, hhead]; rfl), List.dropWhile_append_of_pos hm,
      List.dropWhile_cons_of_neg hstop, List.takeWhile_append_of_pos hm,
      List.takeWhile_cons_of_neg hstop]
    simp [hq', closing]

/-- The rest of a statement ends with a specifier. -/
theorem clause?_shape {state : ClauseState} {s u : Text} (h : clause? state s = some u) :
    ∃ body spec r, u = body ++ spec ∧ specifier? r = some spec := by
  induction s generalizing state u with
  | nil => cases h
  | cons c s ih =>
    rw [clause?] at h
    split at h
    · next spec hspec =>
      obtain rfl := Option.some.inj h
      split at hspec
      · exact ⟨[], _, _, rfl, hspec⟩
      · cases hspec
    · split at h
      · cases h
      · obtain ⟨u', hu, rfl⟩ := Option.map_eq_some_iff.1 h
        obtain ⟨body, spec, r, rfl, hspec⟩ := ih hu
        exact ⟨c :: body, spec, r, rfl, hspec⟩

theorem newline_mem_of_comment {s u : Text} (h : clause? .comment s = some u) : '\n' ∈ u := by
  induction s generalizing u with
  | nil => cases h
  | cons c s ih =>
    rw [clause?] at h
    simp only [reduceCtorEq, if_false] at h
    by_cases hc : c = '\n'
    · simp only [ClauseState.next?, hc, if_true] at h
      obtain ⟨u', -, rfl⟩ := Option.map_eq_some_iff.1 h
      simp
    · simp only [ClauseState.next?, hc, if_false] at h
      obtain ⟨u', hu, rfl⟩ := Option.map_eq_some_iff.1 h
      exact List.mem_cons_of_mem c (ih hu)

/-- Whether the walk through a clause stands inside a string. -/
def ClauseState.inString : ClauseState → Bool
  | .string _ => true
  | _ => false

/-- Only a quotation mark opens a string. -/
theorem ClauseState.inString_next? {state state' : ClauseState} {c : Char}
    (hstate : state.inString = false) (hc : isQuote c = false) (h : state.next? c = some state') :
    state'.inString = false := by
  cases state with
  | clause =>
    simp only [next?, hc, Bool.false_eq_true, if_false] at h
    split at h
    · obtain rfl := Option.some.inj h
      rfl
    · split at h
      · cases h
      · obtain rfl := Option.some.inj h
        rfl
  | slash =>
    simp only [next?, hc, Bool.false_eq_true, if_false] at h
    split at h <;> (obtain rfl := Option.some.inj h; rfl)
  | comment =>
    simp only [next?] at h
    split at h <;> (obtain rfl := Option.some.inj h; rfl)
  | string mark => cases hstate

theorem isQuote_of_endsSymbols {c : Char} (h : endsSymbols c = false) : isQuote c = false :=
  (Bool.or_eq_false_iff.1 h).2

theorem specifier?_eq_none {c : Char} (h : isQuote c = false) (s : Text) :
    specifier? (c :: s) = none := by
  simp [specifier?, h]

/-- Where the first quotation mark opens a specifier, the walk ends with it, unless the mark stands in
a comment. -/
theorem clause?_at_quote {state : ClauseState} {x y u v : Text} {q : Char}
    (hstate : state.inString = false) (hx : ∀ c ∈ x, endsSymbols c = false) (hq : isQuote q = true)
    (hv : specifier? (q :: y) = some v) (h : clause? state (x ++ q :: y) = some u) :
    u = x ++ v ∨ ∃ u', u = x ++ q :: u' ∧ '\n' ∈ u' := by
  have hslash : q ≠ '/' := by
    rintro rfl
    exact absurd hq (by decide)
  have hnewline : q ≠ '\n' := by
    rintro rfl
    exact absurd hq (by decide)
  induction x generalizing state u with
  | nil =>
    rw [List.nil_append, clause?, hv] at h
    cases state with
    | clause => exact .inl (Option.some.inj h).symm
    | slash => simp [ClauseState.next?, hslash, hq] at h
    | comment =>
      simp only [reduceCtorEq, if_false, ClauseState.next?, hnewline] at h
      obtain ⟨u', hu, rfl⟩ := Option.map_eq_some_iff.1 h
      exact .inr ⟨u', rfl, newline_mem_of_comment hu⟩
    | string mark => cases hstate
  | cons c x ih =>
    obtain ⟨hc, hx⟩ := List.forall_mem_cons.1 hx
    have hc := isQuote_of_endsSymbols hc
    rw [List.cons_append, clause?, specifier?_eq_none hc, ite_self] at h
    dsimp only at h
    split at h
    · cases h
    · next state' hnext =>
      obtain ⟨u', hu, rfl⟩ := Option.map_eq_some_iff.1 h
      rcases ih (ClauseState.inString_next? hstate hc hnext) hx hu with rfl | ⟨w, rfl, hw⟩
      · exact .inl rfl
      · exact .inr ⟨w, rfl, hw⟩

/-- The parts of a statement. -/
structure Parts where
  indent : Text
  /-- What follows `import`. -/
  first : Char
  body : Text
  opening : Char
  specifier : Text
  ending : Char
  tail : Text
  indent_space : ∀ c ∈ indent, isSpace c = true
  first_opens : opensClause first = true
  opening_quote : isQuote opening = true
  specifier_ne_nil : specifier ≠ []
  specifier_inside : ∀ c ∈ specifier, inSpecifier c = true
  ending_quote : isQuote ending = true
  tail_closes : ∀ c ∈ tail, isSpace c = true ∨ c = ';'

namespace Parts

/-- What stands between `import` and the specifier. -/
def clause (p : Parts) : Text := p.first :: p.body

/-- The specifier with its marks and what closes the statement. -/
def quoted (p : Parts) : Text := p.opening :: (p.specifier ++ p.ending :: p.tail)

/-- The statement. -/
def text (p : Parts) : Text := p.indent ++ keyword ++ p.clause ++ p.quoted

theorem isQuote_specifier (p : Parts) : ∀ c ∈ p.specifier, isQuote c = false := by
  intro c hc
  have h := p.specifier_inside c hc
  simp only [inSpecifier, Bool.not_eq_true', Bool.or_eq_false_iff] at h
  exact h.1

theorem lastQuoted_text (p : Parts) :
    lastQuoted p.text = (p.specifier, p.indent ++ keyword ++ p.clause) :=
  lastQuoted_eq p.opening_quote p.ending_quote p.isQuote_specifier
    fun c hc => isQuote_of_closes (p.tail_closes c hc)

theorem specifierOf_text (p : Parts) : specifierOf p.text = p.specifier := by
  rw [specifierOf, lastQuoted_text]

theorem clauseOf_text (p : Parts) : clauseOf p.text = p.clause := by
  rw [clauseOf, lastQuoted_text, afterKeyword?_eq_some_iff.2 ⟨p.indent, rfl, p.indent_space⟩]
  rfl

/-- A specifier and what closes it stay within a line. -/
theorem newline_not_mem_quoted (p : Parts) : '\n' ∉ p.quoted := by
  have hmark : ∀ c, isQuote c = true → '\n' ≠ c := by
    rintro c hc rfl
    exact absurd hc (by decide)
  intro h
  rcases List.mem_cons.1 h with h | h
  · exact hmark _ p.opening_quote h
  · rcases List.mem_append.1 h with h | h
    · exact absurd (p.specifier_inside _ h) (by decide)
    · rcases List.mem_cons.1 h with h | h
      · exact hmark _ p.ending_quote h
      · exact absurd (p.tail_closes _ h) (by decide)

end Parts

/-- **A statement has its parts, and the walk through its clause ends with the specifier.** -/
theorem statement?_parts {line t : Text} (h : statement? line = some t) :
    ∃ p : Parts, t = p.text ∧ ∃ s, line = p.text ++ s ∧
      clause? .clause (p.body ++ p.quoted ++ s) = some (p.body ++ p.quoted) := by
  rw [statement?] at h
  split at h
  · cases h
  · cases h
  · next c s hs =>
    split at h
    · next hc =>
      obtain ⟨u, hu, rfl⟩ := Option.map_eq_some_iff.1 h
      obtain ⟨r, rfl⟩ := clause?_front hu
      obtain ⟨body, spec, r', rfl, hspec⟩ := clause?_shape hu
      obtain ⟨q, m, q', r'', -, rfl, hq, hq', hne, hm⟩ := specifier?_eq_some_iff.1 hspec
      refine ⟨⟨line.takeWhile isSpace, c, body, q, m, q', closing r'', fun d hd => List.mem_takeWhile_imp hd,
        hc, hq, hne, hm, hq', fun d hd => mem_closing hd⟩, ?_, r, ?_, hu⟩
      · simp [Parts.text, Parts.clause, Parts.quoted]
      · exact (afterKeyword?_split hs).trans (by simp [Parts.text, Parts.clause, Parts.quoted])
    · cases h

/-! ### Which statements mention their module -/

/-- Whether a clause is plain up to a quoted name of the module: as a whole, before the specifier, or
in a front that a name of the module follows inside the clause. -/
def PlainUpTo (m clause : Text) : Prop :=
  Lead clause ∨ ∃ lead q q' r, clause = lead ++ q :: (m ++ q' :: r) ∧ Lead lead ∧ isQuote q = true ∧
    isQuote q' = true

/-- Two readings of one text as a front and a quoted name: the fronts are the same, or the second
reading lies inside the first front, or its name ends where that front does. -/
theorem lead_or_of_split {clause lead m z z' : Text} {q q' p p' : Char}
    (h : clause ++ q :: (m ++ q' :: z) = lead ++ p :: (m ++ p' :: z')) (hq : isQuote q = true)
    (hm : ∀ c ∈ m, isQuote c = false) (hlead : Lead lead) :
    Lead clause ∨ (∃ r, clause = lead ++ p :: (m ++ p' :: r)) ∨ clause = lead ++ p :: m := by
  rcases List.append_eq_append_iff.1 h with ⟨x, rfl, hx⟩ | ⟨x, rfl, hx⟩
  · cases x with
    | nil => exact .inl (by simpa using hlead)
    | cons d x =>
      -- a quotation mark cannot stand in the front
      obtain ⟨rfl, -⟩ := List.cons.inj hx
      have hends := hlead.endsSymbols_eq_false q (by simp)
      rw [endsSymbols_of_isQuote hq] at hends
      cases hends
  · cases x with
    | nil => exact .inl (by simpa using hlead)
    | cons d x =>
      obtain ⟨rfl, hx'⟩ : p = d ∧ m ++ p' :: z' = x ++ q :: (m ++ q' :: z) := List.cons.inj hx
      rcases List.append_eq_append_iff.1 hx' with ⟨y, rfl, hy⟩ | ⟨y, rfl, hy⟩
      · cases y with
        | nil => exact .inr (.inr (by simp))
        | cons e y =>
          obtain ⟨rfl, -⟩ := List.cons.inj hy
          exact .inr (.inl ⟨y, rfl⟩)
      · cases y with
        | nil => exact .inr (.inr (by simp))
        | cons e y =>
          obtain ⟨rfl, -⟩ := List.cons.inj hy
          rw [hm q (by simp)] at hq
          cases hq

/-- The specifier cannot come right after another quoted name in its clause: there the walk would have
ended before, or would still be inside a comment. -/
theorem Parts.clause_ne {p : Parts} {s lead : Text} {q : Char}
    (h : clause? .clause (p.body ++ p.quoted ++ s) = some (p.body ++ p.quoted)) (hlead : Lead lead)
    (hq : isQuote q = true) : p.clause ≠ lead ++ q :: p.specifier := by
  intro hclause
  cases lead with
  | nil =>
    obtain ⟨hfirst, -⟩ := List.cons.inj hclause
    have hopens := p.first_opens
    rw [hfirst, opensClause, Element.isBlank_of_isQuote hq] at hopens
    simp only [isQuote, Bool.or_eq_true, beq_iff_eq] at hq
    rcases hq with rfl | rfl <;> exact absurd hopens (by decide)
  | cons c lead =>
    obtain ⟨-, hbody⟩ := List.cons.inj hclause
    have hx : ∀ d ∈ lead, endsSymbols d = false :=
      fun d hd => hlead.endsSymbols_eq_false d (List.mem_cons_of_mem c hd)
    have hsplit : p.body ++ p.quoted ++ s =
        lead ++ q :: (p.specifier ++ p.opening :: (p.specifier ++ p.ending :: p.tail ++ s)) := by
      rw [hbody]
      simp [Parts.quoted]
    have hspec := specifier?_eq_some_iff.2 ⟨q, p.specifier, p.opening,
      p.specifier ++ p.ending :: p.tail ++ s, rfl, rfl, hq, p.opening_quote, p.specifier_ne_nil,
      p.specifier_inside⟩
    rw [hsplit] at h
    rcases clause?_at_quote rfl hx hq hspec h with hu | ⟨u, hu, hnewline⟩
    · -- what closes a specifier holds no quotation mark
      have hsame : p.specifier ++ p.ending :: p.tail =
          closing (p.specifier ++ p.ending :: p.tail ++ s) := by
        simpa [hbody, Parts.quoted] using hu
      have hmem : p.ending ∈ closing (p.specifier ++ p.ending :: p.tail ++ s) := by
        rw [← hsame]
        simp
      have hnot := isQuote_of_closes (mem_closing hmem)
      rw [p.ending_quote] at hnot
      cases hnot
    · have hsame : u = p.specifier ++ p.quoted := by simpa [hbody] using hu.symm
      rw [hsame] at hnewline
      rcases List.mem_append.1 hnewline with hmem | hmem
      · exact absurd (p.specifier_inside _ hmem) (by decide)
      · exact p.newline_not_mem_quoted hmem

/-- **A statement mentions its module exactly when its clause is plain up to a quoted name of it.** -/
theorem lineImports_statement_iff {line t : Text} (h : statement? line = some t) :
    lineImports (specifierOf t) line = true ↔ PlainUpTo (specifierOf t) (clauseOf t) := by
  obtain ⟨p, rfl, s, rfl, hwalk⟩ := statement?_parts h
  have hline : p.text ++ s =
      p.indent ++ keyword ++ (p.clause ++ p.opening :: (p.specifier ++ p.ending :: (p.tail ++ s))) := by
    simp [Parts.text, Parts.quoted]
  rw [p.specifierOf_text, p.clauseOf_text, lineImports_iff]
  constructor
  · rintro ⟨indent, lead, q, q', r, hline', hindent, hlead, hq, hq'⟩
    have hafter := afterKeyword?_eq_some_iff.2 ⟨p.indent, hline, p.indent_space⟩
    rw [afterKeyword?_eq_some_iff.2 ⟨indent, hline', hindent⟩] at hafter
    have hsame := (Option.some.inj hafter).symm
    rcases lead_or_of_split hsame p.opening_quote p.isQuote_specifier hlead with hplain | ⟨r', hr'⟩ | hr'
    · exact .inl hplain
    · exact .inr ⟨lead, q, q', r', hr', hlead, hq, hq'⟩
    · exact absurd hr' (Parts.clause_ne hwalk hlead hq)
  · rintro (hplain | ⟨lead, q, q', r, hr, hlead, hq, hq'⟩)
    · exact ⟨p.indent, p.clause, p.opening, p.ending, p.tail ++ s, hline, p.indent_space, hplain,
        p.opening_quote, p.ending_quote⟩
    · refine ⟨p.indent, lead, q, q', r ++ p.quoted ++ s, ?_, p.indent_space, hlead, hq, hq'⟩
      simp [Parts.text, hr]

/-! ### Texts with a statement that names the module -/

theorem statementPattern_read?_eq_some_iff {before : Option Char} {s t : Text} :
    statementPattern.read? before s = some t ↔ atLineStart before = true ∧ statement? s = some t := by
  show (if atLineStart before then statement? s else none) = some t ↔ _
  by_cases h : atLineStart before = true <;> simp [h]

/-- A statement of a scan stands at the start of a line, and is read there. -/
theorem statement_of_scan_eq {source t : Text} {ps qs : List (Piece Text)}
    (h : statementPattern.scan source = ps ++ .found t :: qs) :
    source = ps.flatMap statementPattern.pieceSource ++
        (t ++ qs.flatMap statementPattern.pieceSource) ∧
      atLineStart (ps.flatMap statementPattern.pieceSource).getLast? = true ∧
      statement? (t ++ qs.flatMap statementPattern.pieceSource) = some t := by
  refine ⟨?_, statementPattern_read?_eq_some_iff.1 (statementPattern.read?_of_scan_eq h)⟩
  conv => lhs; rw [← statementPattern.flatMap_source_scan source, h, List.flatMap_append, List.flatMap_cons]
  rfl

/-- **Where a statement names the module, a second declaration is kept out exactly when the module has its
pattern, and the clause of the statement is plain up to a quoted name of the module or another line imports
the module.** -/
theorem add_of_statement_iff (refusals : Refusals) (source m t : Text) (ps qs : List (Piece Text))
    (hscan : statementPattern.scan source = ps ++ .found t :: qs) (hm : specifierOf t = m)
    (symbols : List Text) :
    (recognise refusals source m = .ok true ↔ add refusals source m symbols = .ok none) ∧
      (add refusals source m symbols = .ok none ↔ refusals m = none ∧ (PlainUpTo m (clauseOf t) ∨
        ∃ a line, source = a ++ line ∧ a ≠ ps.flatMap statementPattern.pieceSource ∧
          atLineStart a.getLast? = true ∧ Mentions m line)) := by
  refine ⟨add_eq_ok_none_iff.symm, ?_⟩
  obtain ⟨hsource, hstart, hstatement⟩ := statement_of_scan_eq hscan
  have hplain := lineImports_statement_iff hstatement
  rw [hm, lineImports_iff] at hplain
  rw [add_eq_ok_none_iff, recognise_eq_ok_iff, importsModule_iff]
  refine and_congr_right fun _ => ?_
  constructor
  · rintro ⟨a, line, hs, ha, hmention⟩
    by_cases hfront : a = ps.flatMap statementPattern.pieceSource
    · rw [hsource, hfront] at hs
      rw [← List.append_cancel_left hs] at hmention
      exact .inl (hplain.1 hmention)
    · exact .inr ⟨a, line, hs, hfront, ha, hmention⟩
  · rintro (hclause | ⟨a, line, hs, -, ha, hmention⟩)
    · exact ⟨_, _, hsource, hstart, hplain.2 hclause⟩
    · exact ⟨a, line, hs, ha, hmention⟩

/-- An import over several lines. -/
def longImport : Text :=
  "import \x7b\n  Loading,\n\x7d from '@/components/ui/Loading';".toList

theorem longImport_not_repeated :
    statementPattern.scan longImport = [] ++ .found longImport :: [] ∧
      specifierOf longImport = defaultModule ∧
      add noRefusals longImport defaultModule ["LoadingCentered".toList] = .ok none := by
  have hscan : statementPattern.scan longImport = [] ++ .found longImport :: [] := by decide +kernel
  have hspec : specifierOf longImport = defaultModule := by decide +kernel
  have hclause : clauseOf longImport =
      ' ' :: ("\x7b\n  Loading,\n\x7d ".toList ++ fromWord ++ [' ']) := by decide +kernel
  have hplain : ("\x7b\n  Loading,\n\x7d ".toList.all fun c => !endsSymbols c) = true := by
    decide +kernel
  have hlead : Lead (clauseOf longImport) := by
    rw [hclause]
    refine .symbols (by decide) (fun c hc => ?_) (by decide +kernel) blanks_space
    simpa using List.all_eq_true.1 hplain c hc
  have hadd := add_of_statement_iff noRefusals longImport defaultModule longImport [] [] hscan hspec
    ["LoadingCentered".toList]
  exact ⟨hscan, hspec, hadd.2.2 ⟨rfl, .inl (.inl hlead)⟩⟩

/-- An import over several lines, with a remark that holds an apostrophe. -/
def remarkedImport : Text :=
  "import \x7b\n  Loading, // don't remove\n\x7d from \"@/components/ui/Loading\";\n".toList

/-- The apostrophe hides the import from the one recogniser, not from the other: the text gets a second
declaration for the module it imports. -/
theorem remarkedImport_repeated :
    add noRefusals remarkedImport defaultModule ["LoadingCentered".toList] =
        .ok (some (remarkedImport ++ declaration defaultModule ["LoadingCentered".toList] ++ ['\n'])) ∧
      ¬ ∀ source m : Text, m ≠ [] → (∀ c ∈ m, inSpecifier c = true) →
        (∃ t ∈ statementPattern.occurrences source, specifierOf t = m) →
          recognise noRefusals source m = .ok true := by
  refine ⟨by decide +kernel, fun h => ?_⟩
  have hinside : ∀ c ∈ defaultModule, inSpecifier c = true := List.all_eq_true.1 (by decide +kernel)
  have hmissed := h remarkedImport defaultModule (by decide +kernel) hinside
    ⟨remarkedImport.dropLast, by decide +kernel, by decide +kernel⟩
  exact absurd hmissed (by decide +kernel)

end Import
end SpinnerMarkup
