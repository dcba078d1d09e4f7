import SpinnerMarkup.Proofs.Pass

/-! Attribute texts: their strings, their braces, and the tag they belong to.

The walk through an element's attributes minds quotation marks and nothing else. `outside` is the
attribute text without its strings, and no closing mark is left in it (`read?_outside`). Braces
enclose the expressions of a tag, and an expression may hold any markup; `tag?` reads a tag with
its expressions, up to the first closing mark outside strings and braces. `replaced_balanced_iff`
says what becomes of an element with expressions: the text a pass replaces has balanced braces
exactly when the tag has no closing mark outside strings but its last. Where it has one, in an open
expression, the pass cuts the expression off there (`open_expression_cut`). -/
namespace SpinnerMarkup

open Text

namespace Element

/-! ### Strings -/

/-- The mark of the string that is open after a text. -/
def openString (quote : Option Char) : Text → Option Char
  | [] => quote
  | c :: s =>
    match quote with
    | some q => openString (if c = q then none else some q) s
    | none => openString (if isQuote c then some c else none) s

/-- The characters of a text that stand in no string and are no quotation mark. -/
def outside (quote : Option Char) : Text → Text
  | [] => []
  | c :: s =>
    match quote with
    | some q => outside (if c = q then none else some q) s
    | none => if isQuote c then outside (some c) s else c :: outside none s

theorem outside_append (quote : Option Char) (a b : Text) :
    outside quote (a ++ b) = outside quote a ++ outside (openString quote a) b := by
  induction a generalizing quote with
  | nil => rfl
  | cons c a ih =>
    cases quote with
    | some q => exact ih _
    | none =>
      cases hc : isQuote c with
      | true => simp [outside, openString, hc, ih]
      | false => simp [outside, openString, hc, ih]

/-- A text without quotation marks is all outside strings. -/
theorem outside_eq_self {s : Text} (h : ∀ c ∈ s, isQuote c = false) :
    outside none s = s ∧ openString none s = none := by
  induction s with
  | nil => exact ⟨rfl, rfl⟩
  | cons c s ih =>
    obtain ⟨hc, hs⟩ := List.forall_mem_cons.1 h
    simp [outside, openString, hc, ih hs]

/-- The walk passes no closing mark outside strings, and leaves every string closed. -/
theorem walk?_outside {quote : Option Char} {s : Text} {e : Element} (h : walk? quote s = some e) :
    '>' ∉ outside quote e.attributes ∧ openString quote e.attributes = none := by
  induction s generalizing quote e with
  | nil => cases h
  | cons c s ih =>
    cases quote with
    | some q =>
      obtain ⟨e', he, rfl⟩ := Option.map_eq_some_iff.1 h
      exact ih (e := e') he
    | none =>
      rw [walk?] at h
      split at h
      · obtain rfl := Option.some.inj h
        exact ⟨by simp [outside], rfl⟩
      · split at h
        · cases h
        · next hc =>
          obtain ⟨e', he, rfl⟩ := Option.map_eq_some_iff.1 h
          obtain ⟨hgt, hopen⟩ := ih (e := e') he
          cases hq : isQuote c with
          | true =>
            rw [hq, if_pos rfl] at hgt hopen
            simp [cons, outside, openString, hq, hgt, hopen]
          | false =>
            rw [hq] at hgt hopen
            have hgt' : '>' ∉ outside none e'.attributes := hgt
            have hopen' : openString none e'.attributes = none := hopen
            simp [cons, outside, openString, hq, hgt', hopen', Ne.symm hc]

/-- **Outside its strings the attribute text of an element holds no closing mark.** -/
theorem read?_outside {s : Text} {e : Element} (h : read? s = some e) :
    '>' ∉ outside none e.attributes ∧ openString none e.attributes = none := by
  obtain ⟨c, u, rfl, ⟨hc, e', he, rfl⟩ | ⟨-, n, -, rfl⟩⟩ := read?_cases h
  · obtain ⟨hgt, hopen⟩ := walk?_outside he
    have hq := isQuote_of_isBlank hc
    have hne : '>' ≠ c := (ne_of_isBlank hc (by decide)).symm
    simp [cons, outside, openString, hq, hgt, hopen, hne]
  · exact ⟨by simp [outside], rfl⟩

/-! ### Braces -/

/-- The number of braces open after a text; none when a closing brace closes nothing. -/
def braces? (depth : Nat) : Text → Option Nat
  | [] => some depth
  | c :: s =>
    if c = '\x7b' then braces? (depth + 1) s
    else if c = '\x7d' then
      match depth with
      | 0 => none
      | depth + 1 => braces? depth s
    else braces? depth s

/-- Outside strings, every brace has its partner. -/
def Balanced (attributes : Text) : Prop := braces? 0 (outside none attributes) = some 0

instance (attributes : Text) : Decidable (Balanced attributes) :=
  inferInstanceAs (Decidable (braces? 0 (outside none attributes) = some 0))

theorem braces?_cons (depth : Nat) (c : Char) (s : Text) :
    braces? depth (c :: s) = (braces? depth [c]).bind (braces? · s) := by
  by_cases hopen : c = '\x7b'
  · simp [braces?, hopen]
  · by_cases hclose : c = '\x7d'
    · cases depth <;> simp [braces?, hclose]
    · simp [braces?, hopen, hclose]

theorem braces?_other {c : Char} (ho : c ≠ '\x7b') (hc : c ≠ '\x7d') (depth : Nat) (s : Text) :
    braces? depth (c :: s) = braces? depth s := by
  simp [braces?, ho, hc]

theorem braces?_blanks {b : Text} (hb : Blanks b) (depth : Nat) (s : Text) :
    braces? depth (b ++ s) = braces? depth s := by
  induction b with
  | nil => rfl
  | cons c b ih =>
    obtain ⟨hc, hb⟩ := List.forall_mem_cons.1 hb
    have hopen : c ≠ '\x7b' := ne_of_isBlank hc (by decide)
    have hclose : c ≠ '\x7d' := ne_of_isBlank hc (by decide)
    rw [List.cons_append, braces?_other hopen hclose, ih hb]

/-! ### The tag with its expressions -/

/-- The text of a tag up to the first closing mark outside strings and braces. -/
def tag? (quote : Option Char) (depth : Nat) : Text → Option Text
  | [] => none
  | c :: s =>
    match quote with
    | some q => (tag? (if c = q then none else some q) depth s).map (c :: ·)
    | none =>
      if isQuote c then (tag? (some c) depth s).map (c :: ·)
      else if c = '>' ∧ depth = 0 then some []
      else (braces? depth [c]).bind fun depth => (tag? none depth s).map (c :: ·)

/-- A tag is read through a text without closing marks outside strings. -/
theorem tag?_append {quote : Option Char} {depth : Nat} {a : Text} (h : '>' ∉ outside quote a)
    (s : Text) : tag? quote depth (a ++ s) =
      (braces? depth (outside quote a)).bind fun depth =>
        (tag? (openString quote a) depth s).map (a ++ ·) := by
  induction a generalizing quote depth with
  | nil => simp [outside, openString, braces?]
  | cons c a ih =>
    have hmap : ∀ (q : Option Char) (d : Nat),
        ((tag? q d s).map (a ++ ·)).map (c :: ·) = (tag? q d s).map (c :: a ++ ·) := by
      intro q d
      rw [Option.map_map]
      rfl
    cases quote with
    | some q =>
      rw [List.cons_append, tag?]
      rw [ih h, Option.map_bind]
      exact congrArg _ (funext fun d => hmap _ d)
    | none =>
      cases hq : isQuote c with
      | true =>
        have ho : outside none (c :: a) = outside (some c) a := by simp [outside, hq]
        have hs : openString none (c :: a) = openString (some c) a := by simp [openString, hq]
        rw [ho] at h
        rw [List.cons_append, tag?, ho, hs]
        rw [if_pos hq, ih h, Option.map_bind]
        exact congrArg _ (funext fun d => hmap _ d)
      | false =>
        have ho : outside none (c :: a) = c :: outside none a := by simp [outside, hq]
        have hs : openString none (c :: a) = openString none a := by simp [openString, hq]
        rw [ho] at h
        obtain ⟨hc, ha⟩ : '>' ≠ c ∧ '>' ∉ outside none a := by simpa using h
        rw [List.cons_append, tag?, ho, hs, braces?_cons depth c (outside none a), Option.bind_assoc]
        rw [if_neg (by simp [hq]), if_neg (fun hg => hc hg.1.symm)]
        refine congrArg _ (funext fun d => ?_)
        rw [ih ha, Option.map_bind]
        exact congrArg _ (funext fun d => hmap _ d)

/-- The part of an ending up to its first closing mark, which closes the tag. -/
theorem IsEnding.exists_close {n : Text} (h : IsEnding n) :
    ∃ z r, n = z ++ '>' :: r ∧ (∀ c ∈ z, isQuote c = false) ∧ '>' ∉ z ∧
      ∀ d, braces? d z = some d := by
  cases h with
  | @selfClosing b hb =>
    refine ⟨b ++ ['/'], [], by simp, ?_, ?_, fun d => braces?_blanks hb d ['/']⟩
    · intro c hc
      rcases List.mem_append.1 hc with hc | hc
      · exact isQuote_of_isBlank (hb c hc)
      · obtain rfl := List.mem_singleton.1 hc
        decide
    · intro hc
      rcases List.mem_append.1 hc with hc | hc
      · exact ne_of_isBlank (hb _ hc) (by decide) rfl
      · exact absurd hc (by decide)
  | @paired b b' b'' hb hb' hb'' =>
    refine ⟨b, b' ++ ['<', '/', 'd', 'i', 'v'] ++ b'' ++ ['>'], by simp, ?_, ?_, fun d => ?_⟩
    · exact fun c hc => isQuote_of_isBlank (hb c hc)
    · exact fun hc => ne_of_isBlank (hb _ hc) (by decide) rfl
    · simpa [braces?] using braces?_blanks hb d []

/-- A closing mark inside braces is passed over. -/
theorem tag?_close_succ (depth : Nat) (s : Text) :
    tag? none (depth + 1) ('>' :: s) = (tag? none (depth + 1) s).map ('>' :: ·) := by
  have hq : isQuote '>' = false := by decide
  simp [tag?, hq, braces?]

/-- **An element has balanced braces exactly when its tag is closed by its own ending, and by the
first closing mark outside strings.** -/
theorem balanced_iff {s : Text} {e : Element} (h : read? s = some e) (r : Text) :
    Balanced e.attributes ↔ ∃ tag, tag? none 0 (e.attributes ++ e.ending ++ r) = some tag ∧
      '>' ∉ outside none tag ∧ tag ++ ['>'] <+: e.attributes ++ e.ending := by
  obtain ⟨hgt, hopen⟩ := read?_outside h
  obtain ⟨z, r', hz, hquote, hclose, hbraces⟩ := (read?_isEnding h).exists_close
  obtain ⟨hz₁, hz₂⟩ := outside_eq_self hquote
  have hout : '>' ∉ outside none z := by rwa [hz₁]
  -- the walk ends at the closing mark of the ending, at the depth the attributes leave
  have hread : tag? none 0 (e.attributes ++ e.ending ++ r) =
      (braces? 0 (outside none e.attributes)).bind fun depth =>
        ((tag? none depth ('>' :: (r' ++ r))).map (z ++ ·)).map (e.attributes ++ ·) := by
    have hsplit : e.attributes ++ e.ending ++ r = e.attributes ++ (z ++ '>' :: (r' ++ r)) := by
      simp [hz]
    rw [hsplit, tag?_append hgt, hopen]
    refine congrArg _ (funext fun depth => ?_)
    rw [tag?_append hout, hz₁, hz₂, hbraces]
    rfl
  rw [hread, Balanced]
  cases hb : braces? 0 (outside none e.attributes) with
  | none => simp
  | some depth =>
    cases depth with
    | zero =>
      have hq : isQuote '>' = false := by decide
      have hstop : tag? none 0 ('>' :: (r' ++ r)) = some [] := by simp [tag?, hq]
      refine iff_of_true rfl ⟨e.attributes ++ z, by simp [hstop], ?_, r', by simp [hz]⟩
      rw [outside_append, hopen, List.mem_append]
      exact not_or.2 ⟨hgt, hout⟩
    | succ depth =>
      refine iff_of_false (by simp) ?_
      rintro ⟨tag, htag, hnot, -⟩
      rw [Option.bind_some, tag?_close_succ, Option.map_map, Option.map_map] at htag
      obtain ⟨rest, -, rfl⟩ := Option.map_eq_some_iff.1 htag
      apply hnot
      have hq : isQuote '>' = false := by decide
      show '>' ∈ outside none (e.attributes ++ (z ++ '>' :: rest))
      rw [outside_append, hopen, outside_append, hz₂]
      simp [outside, hq]

end Element

/-! ### What a pass replaces -/

open Element in
/-- **A replaced element is whole exactly when its tag has one closing mark outside strings, its
last.** The left side is about what a pass takes out of the text; the right side reads on from
there, expressions and all. -/
theorem replaced_balanced_iff (c : Catalog) (source : Text) (pre post : List Rule) (r : Rule)
    (hrules : c.rules = pre ++ r :: post) (ps qs : List (Piece Element)) (e : Element)
    (hscan : pattern.scan (textAfter pre source) = ps ++ .found e :: qs)
    (hr : r.replaces e = true) :
    (c.apply source).text = textAfter post
        (ps.flatMap r.rendered ++ r.replacement.render ++ qs.flatMap r.rendered) ∧
      (Balanced e.attributes ↔
        ∃ tag, tag? none 0 (e.attributes ++ e.ending ++ qs.flatMap pattern.pieceSource) = some tag ∧
          '>' ∉ outside none tag ∧ tag ++ ['>'] <+: e.attributes ++ e.ending) := by
  have hread : read? e.source = some e := read?_of_mem_scan (by rw [hscan]; simp)
  refine ⟨?_, balanced_iff hread _⟩
  have hpass : r.apply (textAfter pre source) =
      ps.flatMap r.rendered ++ r.replacement.render ++ qs.flatMap r.rendered := by
    rw [Rule.apply, hscan]
    simp [Rule.rendered_found, hr]
  rw [c.apply_text, hrules, textAfter_append, textAfter_cons, hpass]

/-- The rule for every spinner that no rule before it took. -/
def lastRule : Rule := ⟨"generic-centered".toList, .generic, .any, [], ⟨.centered, none⟩⟩

/-- A spinner with a style expression. -/
def styledSpinner : Element :=
  ⟨" className=\"animate-spin\" style=\x7b\x7btop: 0\x7d\x7d".toList, " />".toList⟩

/-- The last rule takes it whole: the expression is closed, and so is the tag within the element. -/
theorem styledSpinner_whole :
    Element.pattern.scan (textAfter (Catalog.standard.rules.take 3) styledSpinner.source) =
        [.found styledSpinner] ∧
      lastRule.replaces styledSpinner = true ∧ Element.Balanced styledSpinner.attributes ∧
      ∃ tag, Element.tag? none 0 (styledSpinner.attributes ++ styledSpinner.ending ++ []) = some tag ∧
        '>' ∉ Element.outside none tag ∧
          tag ++ ['>'] <+: styledSpinner.attributes ++ styledSpinner.ending := by
  have hrules : Catalog.standard.rules = Catalog.standard.rules.take 3 ++ lastRule :: [] := by
    decide +kernel
  have hscan : Element.pattern.scan
      (textAfter (Catalog.standard.rules.take 3) styledSpinner.source) = [.found styledSpinner] := by
    decide +kernel
  have hr : lastRule.replaces styledSpinner = true := by decide +kernel
  have hb : Element.Balanced styledSpinner.attributes := by decide +kernel
  refine ⟨hscan, hr, hb, ?_⟩
  exact (replaced_balanced_iff Catalog.standard styledSpinner.source _ [] lastRule hrules [] []
    styledSpinner hscan hr).2.1 hb

/-- A spinner with an element in an expression. -/
def iconInSpinner : Text := "<div className=\"animate-spin\" icon=\x7b<Icon />\x7d />".toList

/-- The replaced element ends in the open expression, whose tail stays behind. -/
theorem open_expression_cut :
    (Catalog.standard.apply iconInSpinner).text = "<LoadingCentered />\x7d />".toList ∧
      ¬ ∀ (c : Catalog) (source : Text) (pre post : List Rule) (r : Rule),
        c.rules = pre ++ r :: post →
          ∀ e ∈ Element.pattern.occurrences (textAfter pre source), r.replaces e = true →
            Element.Balanced e.attributes := by
  refine ⟨by decide +kernel, fun h => ?_⟩
  have hcut := h Catalog.standard iconInSpinner (Catalog.standard.rules.take 3) [] lastRule
    (by decide +kernel) ⟨" className=\"animate-spin\" icon=\x7b<Icon".toList, " />".toList⟩
    (by decide +kernel) (by decide +kernel)
  exact absurd hcut (by decide +kernel)

end SpinnerMarkup
