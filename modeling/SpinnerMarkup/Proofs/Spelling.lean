import SpinnerMarkup.Proofs.ElementGrammar
import SpinnerMarkup.Proofs.Swapping

/-! Spellings of an element.

The same class tokens can be written in many ways: in a plain string, a string in braces or a template,
with any blanks around and between them, among any other attributes, in a tag that closes itself or is
paired with a closing tag. `Spelling` is the grammar of all of them. The element reader and the class
reader know nothing of each other: the one looks for the first ending outside strings, the other for the
first `className` after a blank. `Spelling.read?_text` says that the first takes a spelling whole,
`Spelling.tokens?_attributes` that the second gives its tokens back, and `spelling_reads` what a catalog
makes of it. -/
namespace SpinnerMarkup

open Text

/-! ### The grammar -/

/-- A class token as it may stand in every literal. -/
structure IsToken (t : Text) : Prop where
  ne_nil : t ≠ []
  not_blank : ∀ c ∈ t, isBlank c = false
  plain : ∀ c ∈ t, isQuote c = false ∧ c ≠ backtick ∧ c ≠ '$'

instance (t : Text) : Decidable (IsToken t) :=
  decidable_of_iff (t ≠ [] ∧ (t.all fun c => !isBlank c) = true ∧
      (t.all fun c => !isQuote c && (c != backtick && c != '$')) = true) <| by
    simp only [List.all_eq_true, Bool.not_eq_true', Bool.and_eq_true, bne_iff_ne]
    exact ⟨fun h => ⟨h.1, h.2.1, h.2.2⟩, fun h => ⟨h.ne_nil, h.not_blank, h.plain⟩⟩

open Element in
/-- The texts that list some tokens, with blanks around them and at least one between neighbours. -/
inductive Lists : List Text → Text → Prop where
  | nil {b : Text} : Blanks b → Lists [] b
  | cons {b t s : Text} {ts : List Text} : Blanks b → IsToken t → s.head?.all isBlank = true →
      Lists ts s → Lists (t :: ts) (b ++ t ++ s)

open Element in
/-- The literals a class value can be written as. A tag knows no templates, so a closing mark in one would
end it. -/
inductive IsLiteral (value : Text) : Text → Prop where
  | string {q : Char} : isQuote q = true → IsLiteral value (q :: (value ++ [q]))
  | braced {b b' : Text} {q : Char} : Blanks b → Blanks b' → isQuote q = true →
      IsLiteral value ('\x7b' :: (b ++ q :: (value ++ q :: (b' ++ ['\x7d']))))
  | template {b b' : Text} : Blanks b → Blanks b' → '>' ∉ value →
      IsLiteral value ('\x7b' :: (b ++ backtick :: (value ++ backtick :: (b' ++ ['\x7d']))))

/-- A further attribute: after blanks a name, an equals sign and a quoted value. -/
structure IsAttribute (a : Text) : Prop where
  split : ∃ b name b' b'' value q, a = b ++ name ++ b' ++ '=' :: (b'' ++ q :: (value ++ [q])) ∧ b ≠ [] ∧
    Element.Blanks b ∧ Element.Blanks b' ∧ Element.Blanks b'' ∧
    (∀ c ∈ name, c ≠ '>' ∧ isQuote c = false) ∧ isQuote q = true ∧ q ∉ value
  other : ¬ ClassList.attributeName <:+: a

/-- A way to write an empty element with the given class tokens. -/
structure Spelling (tokens : List Text) where
  /-- The attributes before the class list. -/
  before : List Text
  /-- The blanks before `className`, and those before and after its equals sign. -/
  gap : Text
  left : Text
  right : Text
  value : Text
  literal : Text
  after : List Text
  ending : Text
  before_attributes : ∀ a ∈ before, IsAttribute a
  gap_ne_nil : gap ≠ []
  gap_blanks : Element.Blanks gap
  left_blanks : Element.Blanks left
  right_blanks : Element.Blanks right
  lists : Lists tokens value
  isLiteral : IsLiteral value literal
  after_attributes : ∀ a ∈ after, IsAttribute a
  isEnding : Element.IsEnding ending

namespace Spelling
variable {tokens : List Text}

/-- All that stands between `<div` and the ending. -/
def attributes (p : Spelling tokens) : Text :=
  p.before.flatten ++ p.gap ++ ClassList.attributeName ++ p.left ++ '=' :: (p.right ++ p.literal) ++
    p.after.flatten

def element (p : Spelling tokens) : Element := ⟨p.attributes, p.ending⟩

/-- The element as it is written. -/
def text (p : Spelling tokens) : Text := p.element.source

end Spelling

/-! ### Tokens -/

theorem Lists.words_eq {ts : List Text} {s : Text} (h : Lists ts s) : words s = ts := by
  have hskip : ∀ {b : Text}, Element.Blanks b → ∀ t, words (b ++ t) = words t := by
    intro b hb t
    induction b with
    | nil => rfl
    | cons c b ih =>
      obtain ⟨hc, hb⟩ := List.forall_mem_cons.1 hb
      rw [List.cons_append, words_blank _ hc, ih hb]
  induction h with
  | @nil b hb =>
    have hwords := hskip hb []
    rwa [List.append_nil] at hwords
  | @cons b t s ts hb ht hhead _ ih =>
    rw [List.append_assoc, hskip hb]
    cases s with
    | nil =>
      rw [List.append_nil, words_of_not_blank ht.ne_nil ht.not_blank, ← ih]
      rfl
    | cons c s =>
      rw [words_append_blank s ht.ne_nil ht.not_blank hhead, ← ih, words_blank s hhead]

/-- What a list of tokens holds between them is blank. -/
theorem Lists.plain {ts : List Text} {s : Text} (h : Lists ts s) :
    ∀ c ∈ s, isQuote c = false ∧ c ≠ backtick ∧ c ≠ '$' := by
  have hblank : ∀ {c : Char}, isBlank c = true → isQuote c = false ∧ c ≠ backtick ∧ c ≠ '$' := by
    intro c hc
    exact ⟨Element.isQuote_of_isBlank hc, Element.ne_of_isBlank hc (by decide),
      Element.ne_of_isBlank hc (by decide)⟩
  induction h with
  | nil hb => exact fun c hc => hblank (hb c hc)
  | cons hb ht _ _ ih =>
    intro c hc
    rw [List.append_assoc, List.mem_append, List.mem_append] at hc
    rcases hc with hc | hc | hc
    · exact hblank (hb c hc)
    · exact ht.plain c hc
    · exact ih c hc

/-! ### The class reader -/

namespace ClassList

open Element

theorem braced?_append {value b' : Text} {q : Char} (hq : isQuote q = true ∨ q = backtick)
    (hb' : Blanks b') (hv : ∀ c ∈ value, isQuote c = false ∧ c ≠ backtick ∧ c ≠ '$') (r : Text) :
    braced? (q :: (value ++ q :: (b' ++ '\x7d' :: r))) = some value := by
  have hmark : (isQuote q || q == backtick) = true := by simpa using hq
  have hclosed : q ∉ value := by
    intro hmem
    obtain ⟨hquote, htick, -⟩ := hv q hmem
    rcases hq with hq | hq
    · rw [hquote] at hq
      cases hq
    · exact htick hq
  have hdollar : value.elem '$' = false := by
    simpa using fun hmem : '$' ∈ value => (hv '$' hmem).2.2 rfl
  have hread : quoted? q (value ++ q :: (b' ++ '\x7d' :: r)) = some (value, b' ++ '\x7d' :: r) :=
    quoted?_eq_some_iff.2 ⟨rfl, hclosed⟩
  have hbrace : isBlank '\x7d' = false := by decide
  simp only [braced?, hmark, if_true, hread, hdollar, Bool.and_false, Bool.false_eq_true, if_false,
    dropWhile_blanks hb' hbrace]

/-- A literal is read whatever follows it. -/
theorem literal?_append {value lit : Text} (h : IsLiteral value lit)
    (hv : ∀ c ∈ value, isQuote c = false ∧ c ≠ backtick ∧ c ≠ '$') (r : Text) :
    literal? (lit ++ r) = some value := by
  have hopen : ¬ isQuote '\x7b' = true := by decide
  cases h with
  | @string q hq =>
    have hclosed : q ∉ value := by
      intro hmem
      rw [(hv q hmem).1] at hq
      cases hq
    have hread : quoted? q (value ++ [q] ++ r) = some (value, r) :=
      quoted?_eq_some_iff.2 ⟨by simp, hclosed⟩
    rw [List.cons_append, literal?, if_pos hq, hread]
    rfl
  | @braced b b' q hb hb' hq =>
    have hsplit : '\x7b' :: (b ++ q :: (value ++ q :: (b' ++ ['\x7d']))) ++ r =
        '\x7b' :: (b ++ q :: (value ++ q :: (b' ++ '\x7d' :: r))) := by simp
    rw [hsplit, literal?, if_neg hopen, if_pos rfl, dropWhile_blanks hb (isBlank_of_isQuote hq)]
    exact braced?_append (.inl hq) hb' hv r
  | @template b b' hb hb' _ =>
    have hsplit : '\x7b' :: (b ++ backtick :: (value ++ backtick :: (b' ++ ['\x7d']))) ++ r =
        '\x7b' :: (b ++ backtick :: (value ++ backtick :: (b' ++ '\x7d' :: r))) := by simp
    rw [hsplit, literal?, if_neg hopen, if_pos rfl, dropWhile_blanks hb (by decide)]
    exact braced?_append (.inr rfl) hb' hv r

/-- An assignment is read whatever follows it. -/
theorem assignment?_append {left right value lit : Text} (hleft : Blanks left) (hright : Blanks right)
    (h : IsLiteral value lit) (hv : ∀ c ∈ value, isQuote c = false ∧ c ≠ backtick ∧ c ≠ '$') (r : Text) :
    assignment? (attributeName ++ (left ++ '=' :: (right ++ (lit ++ r)))) = some value := by
  have hafter : after? ['c', 'l', 'a', 's', 's', 'N', 'a', 'm', 'e']
      (attributeName ++ (left ++ '=' :: (right ++ (lit ++ r)))) =
        some (left ++ '=' :: (right ++ (lit ++ r))) := after?_eq_some_iff.2 rfl
  have hequals : isBlank '=' = false := by decide
  obtain ⟨c, s, hlit, hc⟩ : ∃ c s, lit = c :: s ∧ isBlank c = false := by
    cases h with
    | string hq => exact ⟨_, _, rfl, isBlank_of_isQuote hq⟩
    | braced => exact ⟨_, _, rfl, by decide⟩
    | template => exact ⟨_, _, rfl, by decide⟩
  have hread := literal?_append h hv r
  rw [hlit] at hafter hread ⊢
  rw [assignment?, hafter]
  simp only [dropWhile_blanks hleft hequals, List.cons_append, dropWhile_blanks hright hc]
  exact hread

theorem attributeName_not_blank : ∀ c ∈ attributeName, isBlank c = false := by
  have h : (attributeName.all fun c => !isBlank c) = true := by decide
  simpa using h

/-- The first assignment is the one before which the attribute is not named. -/
theorem afterBlank?_append {x u value : Text} {b : Char} (hx : ¬ attributeName <:+: x)
    (hb : isBlank b = true) (hu : assignment? u = some value) : afterBlank? (x ++ b :: u) = some value := by
  have hmark : b ∉ attributeName := by
    intro hmem
    rw [attributeName_not_blank b hmem] at hb
    cases hb
  induction x with
  | nil => rw [List.nil_append, afterBlank?, if_pos hb, hu]
  | cons c x ih =>
    rw [List.infix_cons_iff, not_or] at hx
    have hrest := ih hx.2
    rw [List.cons_append, afterBlank?]
    split
    · have hnone : assignment? (x ++ b :: u) = none := by
        refine Option.eq_none_iff_forall_ne_some.2 fun v hv => ?_
        obtain ⟨t, ht⟩ := exists_of_assignment? hv
        have hfront : attributeName <+: x := (prefix_append_mark_iff hmark).1 ⟨t, ht.symm⟩
        exact hx.2 hfront.isInfix
      rw [hnone]
      exact hrest
    · exact hrest

end ClassList

/-! ### The element reader -/

namespace Element

theorem items_of_plain {w : Text} (h : ∀ c ∈ w, c ≠ '>' ∧ isQuote c = false) : Items w := by
  induction w with
  | nil => exact .nil
  | cons c w ih =>
    obtain ⟨⟨hc, hq⟩, hw⟩ := List.forall_mem_cons.1 h
    exact .char hc hq (ih hw)

/-- The marks that end a value. -/
def closesValue (c : Char) : Bool := isQuote c || c == '\x7d'

/-- No such mark stands in an ending. -/
theorem IsEnding.closesValue_eq_false {n : Text} (h : IsEnding n) : ∀ c ∈ n, closesValue c = false := by
  have hblank : ∀ {b : Text}, Blanks b → ∀ c ∈ b, closesValue c = false := by
    intro b hb c hc
    have hne : c ≠ '\x7d' := ne_of_isBlank (hb c hc) (by decide)
    simp [closesValue, isQuote_of_isBlank (hb c hc), hne]
  have hmarks : ∀ {w : Text}, (w.all fun c => !closesValue c) = true → ∀ c ∈ w, closesValue c = false := by
    intro w hw
    simpa using hw
  cases h with
  | selfClosing hb => exact List.forall_mem_append.2 ⟨hblank hb, hmarks (by decide)⟩
  | paired hb hb' hb'' =>
    have htag := List.forall_mem_append.2 ⟨hblank hb, hmarks (w := ['>']) (by decide)⟩
    have hclose := List.forall_mem_append.2
      ⟨hblank hb', hmarks (w := ['<', '/', 'd', 'i', 'v']) (by decide)⟩
    have hblanks := List.forall_mem_append.2 ⟨hclose, hblank hb''⟩
    exact List.forall_mem_append.2 ⟨htag, List.forall_mem_append.2 ⟨hblanks, hmarks (by decide)⟩⟩

/-- No ending begins before the end of a value. -/
theorem ending?_items_append {w n : Text} {d : Char} (hw : Items w) (hn : IsEnding n) (hd : d ∈ w)
    (hcloses : closesValue d = true) : ending? (w ++ n) = none := by
  refine Option.eq_none_iff_forall_ne_some.2 fun m hm => ?_
  obtain ⟨z, r, rfl, hquote, hclose, -⟩ := hn.exists_close
  have hz : Items z := items_of_plain fun c hc => ⟨fun heq => hclose (heq ▸ hc), hquote c hc⟩
  have hend := isEnding_of_ending? hm
  rw [← List.append_assoc] at hm
  obtain ⟨k, -, rfl⟩ := exists_close_of_ending? (hw.append hz) hm
  have hnot := hend.closesValue_eq_false d (by simp [hd])
  rw [hcloses] at hnot
  cases hnot

theorem walk?_closed_string {q : Char} {v s : Text} {e : Element} (hv : q ∉ v)
    (h : walk? none s = some e) :
    walk? (some q) (v ++ q :: s) = some ⟨v ++ q :: e.attributes, e.ending⟩ := by
  induction v with
  | nil =>
    rw [List.nil_append, walk?, if_pos rfl, h]
    rfl
  | cons c v ih =>
    obtain ⟨hc, hv⟩ : q ≠ c ∧ q ∉ v := by simpa using hv
    rw [List.cons_append, walk?, if_neg hc.symm, ih hv]
    rfl

/-- **The walk takes all that stands before an ending, where a value ends right before it.** -/
theorem walk?_items_append {w n : Text} (hw : Items w) (hn : IsEnding n)
    (hlast : ∀ d, w.getLast? = some d → closesValue d = true) : walk? none (w ++ n) = some ⟨w, n⟩ := by
  induction hw with
  | nil => exact walk?_of_ending? (by simpa using ending?_append hn [])
  | @char c s hc hq hs ih =>
    obtain ⟨d, hd⟩ : ∃ d, (c :: s).getLast? = some d := ⟨_, List.getLast?_cons⟩
    have hend := ending?_items_append (.char hc hq hs) hn (List.mem_of_getLast? hd) (hlast d hd)
    have hrest := ih fun d hd => hlast d (by rw [List.getLast?_cons, hd]; rfl)
    rw [List.cons_append] at hend ⊢
    rw [walk?, hend, if_neg hc, hq, if_neg (by decide), hrest]
    rfl
  | @string q v s hq hv _ ih =>
    have hrest := ih fun d hd => hlast d (by simp [List.getLast?_cons, List.getLast?_append, hd])
    have hsplit : q :: (v ++ q :: s) ++ n = q :: (v ++ q :: (s ++ n)) := by simp
    rw [hsplit, walk?_mark hq, walk?_closed_string hv hrest]
    rfl

end Element

/-! ### Further attributes -/

/-- Items that end with the end of a value. -/
structure EndsValue (w : Text) : Prop where
  items : Element.Items w
  closes : ∃ v d, w = v ++ [d] ∧ Element.closesValue d = true

theorem EndsValue.append {a b : Text} (ha : Element.Items a) (hb : EndsValue b) : EndsValue (a ++ b) := by
  obtain ⟨v, d, rfl, hd⟩ := hb.closes
  exact ⟨ha.append hb.items, a ++ v, d, by simp, hd⟩

theorem EndsValue.getLast? {w : Text} (h : EndsValue w) {d : Char} (hd : w.getLast? = some d) :
    Element.closesValue d = true := by
  obtain ⟨v, d', rfl, hcloses⟩ := h.closes
  obtain rfl : d' = d := by simpa using hd
  exact hcloses

open Element in
theorem IsLiteral.endsValue {value lit : Text} (h : IsLiteral value lit)
    (hv : ∀ c ∈ value, isQuote c = false) : EndsValue lit := by
  have hclosed : ∀ {q : Char}, isQuote q = true → q ∉ value := by
    intro q hq hmem
    rw [hv q hmem] at hq
    cases hq
  have hopen : Items ['\x7b'] := .char (by decide) (by decide) .nil
  have hend : EndsValue ['\x7d'] := ⟨.char (by decide) (by decide) .nil, [], '\x7d', rfl, by decide⟩
  cases h with
  | @string q hq => exact ⟨.string hq (hclosed hq) .nil, q :: value, q, by simp, by simp [closesValue, hq]⟩
  | @braced b b' q hb hb' hq =>
    have hstring : Items (q :: (value ++ [q])) := .string hq (hclosed hq) .nil
    have hsplit : '\x7b' :: (b ++ q :: (value ++ q :: (b' ++ ['\x7d']))) =
        ['\x7b'] ++ b ++ q :: (value ++ [q]) ++ b' ++ ['\x7d'] := by simp
    have hfront := (hopen.append (items_of_blanks hb)).append hstring
    rw [hsplit]
    exact .append (hfront.append (items_of_blanks hb')) hend
  | @template b b' hb hb' hmark =>
    have htick : Items [backtick] := .char (by decide) (by decide) .nil
    have hvalue : Items value := items_of_plain fun c hc => ⟨fun heq => hmark (heq ▸ hc), hv c hc⟩
    have hsplit : '\x7b' :: (b ++ backtick :: (value ++ backtick :: (b' ++ ['\x7d']))) =
        ['\x7b'] ++ b ++ [backtick] ++ value ++ [backtick] ++ b' ++ ['\x7d'] := by simp
    have hfront := ((hopen.append (items_of_blanks hb)).append htick).append hvalue
    rw [hsplit]
    exact .append ((hfront.append htick).append (items_of_blanks hb')) hend

namespace IsAttribute
variable {a : Text}

open Element in
theorem endsValue (h : IsAttribute a) : EndsValue a := by
  obtain ⟨b, name, b', b'', value, q, rfl, -, hb, hb', hb'', hname, hq, hvalue⟩ := h.split
  have hstring : EndsValue (q :: (value ++ [q])) :=
    ⟨.string hq hvalue .nil, q :: value, q, by simp, by simp [closesValue, hq]⟩
  have hequals : Items ['='] := .char (by decide) (by decide) .nil
  have hfront := ((items_of_blanks hb).append (items_of_plain hname)).append (items_of_blanks hb')
  have hsplit : b ++ name ++ b' ++ '=' :: (b'' ++ q :: (value ++ [q])) =
      b ++ name ++ b' ++ ['='] ++ b'' ++ q :: (value ++ [q]) := by simp
  rw [hsplit]
  exact .append ((hfront.append hequals).append (items_of_blanks hb'')) hstring

theorem eq_cons (h : IsAttribute a) : ∃ c s, a = c :: s ∧ isBlank c = true := by
  obtain ⟨b, name, b', b'', value, q, rfl, hne, hb, -⟩ := h.split
  obtain ⟨c, b, rfl⟩ := List.exists_cons_of_ne_nil hne
  exact ⟨c, _, rfl, hb c (List.mem_cons_self ..)⟩

end IsAttribute

theorem items_flatten {as : List Text} (h : ∀ a ∈ as, IsAttribute a) : Element.Items as.flatten := by
  induction as with
  | nil => exact .nil
  | cons a as ih =>
    obtain ⟨ha, has⟩ := List.forall_mem_cons.1 h
    exact ha.endsValue.items.append (ih has)

theorem EndsValue.append_flatten {w : Text} (hw : EndsValue w) {as : List Text}
    (h : ∀ a ∈ as, IsAttribute a) : EndsValue (w ++ as.flatten) := by
  induction as generalizing w with
  | nil => simpa using hw
  | cons a as ih =>
    obtain ⟨ha, has⟩ := List.forall_mem_cons.1 h
    rw [List.flatten_cons, ← List.append_assoc]
    exact ih (.append hw.items ha.endsValue) has

/-- A word without blanks that stands on neither side of a blank does not stand across it. -/
theorem not_infix_append_blank {w x s : Text} (hw : ∀ c ∈ w, isBlank c = false) (hx : ¬ w <:+: x)
    (hs : ¬ w <:+: s) (hhead : s.head?.all isBlank = true) : ¬ w <:+: x ++ s := by
  cases s with
  | nil => simpa using hx
  | cons c s =>
    have hmark : c ∉ w := by
      intro hmem
      have hblank : isBlank c = true := hhead
      rw [hw c hmem] at hblank
      cases hblank
    rw [infix_append_mark_iff hmark]
    intro h
    rcases h with h | h
    · exact hx h
    · exact hs (List.infix_cons h)

theorem not_infix_flatten {as : List Text} (h : ∀ a ∈ as, IsAttribute a) :
    ¬ ClassList.attributeName <:+: as.flatten := by
  induction as with
  | nil => decide
  | cons a as ih =>
    obtain ⟨ha, has⟩ := List.forall_mem_cons.1 h
    have hhead : as.flatten.head?.all isBlank = true := by
      cases as with
      | nil => rfl
      | cons a' as =>
        obtain ⟨c, s, rfl, hc⟩ := (has a' (List.mem_cons_self ..)).eq_cons
        exact hc
    rw [List.flatten_cons]
    exact not_infix_append_blank ClassList.attributeName_not_blank ha.other (ih has) hhead

/-! ### Reading a spelling -/

namespace Spelling
variable {tokens : List Text} (p : Spelling tokens)

open Element in
theorem attributes_endsValue : EndsValue p.attributes := by
  have hname : Items ClassList.attributeName :=
    items_of_plain fun c hc => ⟨fun heq => absurd (heq ▸ hc) (by decide), ClassList.attributeName_plain c hc⟩
  have hequals : Items ['='] := .char (by decide) (by decide) .nil
  have hbefore := (items_flatten p.before_attributes).append (items_of_blanks p.gap_blanks)
  have hassigned := ((hbefore.append hname).append (items_of_blanks p.left_blanks)).append hequals
  have hliteral := p.isLiteral.endsValue fun c hc => (p.lists.plain c hc).1
  have hsplit : p.attributes = p.before.flatten ++ p.gap ++ ClassList.attributeName ++ p.left ++ ['='] ++
      p.right ++ p.literal ++ p.after.flatten := by simp [attributes]
  rw [hsplit]
  exact (EndsValue.append (hassigned.append (items_of_blanks p.right_blanks)) hliteral).append_flatten
    p.after_attributes

theorem attributes_eq_cons : ∃ c s, p.attributes = c :: s ∧ isBlank c = true := by
  cases hbefore : p.before with
  | nil =>
    obtain ⟨c, b, hgap⟩ := List.exists_cons_of_ne_nil p.gap_ne_nil
    exact ⟨c, _, by simp only [attributes, hbefore, hgap]; rfl, p.gap_blanks c (by simp [hgap])⟩
  | cons a as =>
    obtain ⟨c, s, rfl, hc⟩ := (p.before_attributes a (by simp [hbefore])).eq_cons
    exact ⟨c, _, by simp only [attributes, hbefore]; rfl, hc⟩

/-- **A spelling is read as one element**, with all its attributes. -/
theorem read?_text : Element.read? p.text = some p.element := by
  obtain ⟨c, s, hattributes, hc⟩ := p.attributes_eq_cons
  have hends := p.attributes_endsValue
  have hsplit : p.text = Element.opening ++ c :: (s ++ p.ending) := by
    simp [text, element, Element.source, hattributes]
  have hitems : Element.Items s := by
    have hitems := hends.items
    rw [hattributes] at hitems
    cases hitems with
    | char _ _ hs => exact hs
    | string hq _ _ =>
      rw [Element.isQuote_of_isBlank hc] at hq
      cases hq
  have hlast : ∀ d, s.getLast? = some d → Element.closesValue d = true := by
    intro d hd
    exact hends.getLast? (by rw [hattributes, List.getLast?_cons, hd]; rfl)
  rw [hsplit, Element.read?_blank hc, Element.walk?_items_append hitems p.isEnding hlast, element, hattributes]
  rfl

theorem scan_text : Element.pattern.scan p.text = [.found p.element] := by
  have hread : Element.read? (p.element.source ++ []) = some p.element := by
    rw [List.append_nil]
    exact p.read?_text
  have hscan := Element.scan_found hread
  rwa [List.append_nil] at hscan

/-- **The class list of a spelling is its tokens.** -/
theorem tokens?_attributes : ClassList.tokens? p.element.attributes = some tokens := by
  obtain ⟨g, b, hgap⟩ := (List.eq_nil_or_concat p.gap).resolve_left p.gap_ne_nil
  rw [List.concat_eq_append] at hgap
  have hg : Element.Blanks g := fun c hc => p.gap_blanks c (by simp [hgap, hc])
  have hb : isBlank b = true := p.gap_blanks b (by simp [hgap])
  have hfirst : ¬ ClassList.attributeName <:+: p.before.flatten ++ g := by
    refine not_infix_append_blank ClassList.attributeName_not_blank (not_infix_flatten p.before_attributes) ?_ ?_
    · intro hin
      have hblank := hg 'c' (hin.subset (by decide))
      exact absurd hblank (by decide)
    · cases g with
      | nil => rfl
      | cons c g => exact hg c (List.mem_cons_self ..)
  have hread := ClassList.assignment?_append p.left_blanks p.right_blanks p.isLiteral p.lists.plain
    p.after.flatten
  have hsplit : p.element.attributes = p.before.flatten ++ g ++ b :: (ClassList.attributeName ++
      (p.left ++ '=' :: (p.right ++ (p.literal ++ p.after.flatten)))) := by
    simp [element, attributes, hgap]
  have hvalue : ClassList.value? p.element.attributes = some p.value := by
    rw [ClassList.value?_of_read? p.read?_text, hsplit]
    exact ClassList.afterBlank?_append hfirst hb hread
  rw [ClassList.tokens?, hvalue, Option.map_some, p.lists.words_eq]

end Spelling

/-! ### An element alone -/

theorem Rule.count_render (r : Rule) (i : Invocation) : r.count i.render = 0 := by
  have hscan : Element.pattern.scan (i.render ++ []) = i.render.map .plain ++ [] := i.scan_render []
  rw [List.append_nil, List.append_nil] at hscan
  rw [count, hscan, List.countP_eq_zero]
  intro p hp
  obtain ⟨c, -, rfl⟩ := List.mem_map.1 hp
  simp [takes]

/-- What a run makes of an element alone, when the first rule that takes it is known. -/
def outcomeOf (e : Element) : Option Rule → Outcome
  | some r => ⟨r.replacement.render, [⟨r.name, r.replacement.component, 1⟩]⟩
  | none => ⟨e.source, []⟩

/-- **An element alone becomes what the first rule that takes it makes of it.** -/
theorem foldl_step_element {e : Element} (hscan : Element.pattern.scan e.source = [.found e])
    (rules : List Rule) :
    rules.foldl Outcome.step ⟨e.source, []⟩ = outcomeOf e (rules.find? (·.replaces e)) := by
  induction rules with
  | nil => rfl
  | cons r rules ih =>
    have hcount : r.count e.source = if r.replaces e then 1 else 0 := by
      rw [Rule.count, hscan, List.countP_singleton]
      rfl
    rw [List.foldl_cons]
    by_cases hr : r.replaces e = true
    · -- the invocation holds nothing for the rules after it
      have hone : r.count e.source = 1 := by rw [hcount, if_pos hr]
      have happly : r.apply e.source = r.replacement.render := by
        rw [Rule.apply, hscan, List.flatMap_singleton, Rule.rendered_found, if_pos hr]
      have hstep : Outcome.step ⟨e.source, []⟩ r = outcomeOf e (some r) := by
        rw [Outcome.step_of_count_ne_zero (by simp [hone])]
        simp [hone, happly, outcomeOf]
      rw [List.find?_cons_of_pos (p := fun r : Rule => r.replaces e) hr, hstep, Outcome.foldl_step_eq_self_iff]
      exact fun r' _ => r'.count_render r.replacement
    · rw [List.find?_cons_of_neg (p := fun r : Rule => r.replaces e) hr,
        Outcome.step_of_count_eq_zero (by simp [hcount, hr]), ih]

/-- **Every spelling of an element reads the same**: as one element, with the tokens it was written with,
and a catalog makes of it what the first rule that accepts these tokens makes of them. -/
theorem spelling_reads (c : Catalog) (tokens : List Text) (p : Spelling tokens) :
    Element.pattern.scan p.text = [.found p.element] ∧ p.element.source = p.text ∧
      ClassList.tokens? p.element.attributes = some tokens ∧
      c.apply p.text = outcomeOf p.element (c.rules.find? (·.accepts tokens)) := by
  have htokens := p.tokens?_attributes
  have hreplaces : (fun r : Rule => r.replaces p.element) = fun r => r.accepts tokens := by
    funext r
    rw [Rule.replaces, htokens, Option.any_some]
  refine ⟨p.scan_text, rfl, htokens, ?_⟩
  rw [← hreplaces]
  exact foldl_step_element p.scan_text c.rules

/-- Tokens with blanks of several kinds between them. -/
def oddValue : Text :=
  ['\u00a0'] ++ "h-4".toList ++ ([' '] ++ "animate-spin".toList ++ (['\n', ' '] ++ "rounded-full".toList ++ []))

/-- A spinner of odd looks: a closing mark in the title, the class value in braces, a quotation mark in the
attribute after it. -/
def oddSpelling : Spelling ["h-4".toList, "animate-spin".toList, "rounded-full".toList] where
  before := ["\n\ttitle=\"a > b\"".toList]
  gap := "\r\n ".toList
  left := " ".toList
  right := "\t".toList
  value := oddValue
  literal := '\x7b' :: ([' '] ++ singleQuote :: (oddValue ++ singleQuote :: (['\n'] ++ ['\x7d'])))
  after := [" id = 'x\"y'".toList]
  ending := [' '] ++ ['>'] ++ (['\n'] ++ ['<', '/', 'd', 'i', 'v'] ++ [' '] ++ ['>'])
  before_attributes := by
    intro a ha
    obtain rfl := List.mem_singleton.1 ha
    refine ⟨⟨"\n\t".toList, "title".toList, [], [], "a > b".toList, doubleQuote, by decide, by decide, by decide,
      by decide, by decide, ?_, by decide, by decide⟩, by decide +kernel⟩
    have hname : ("title".toList.all fun c => c != '>' && !isQuote c) = true := by decide
    simpa using hname
  gap_ne_nil := by decide
  gap_blanks := by decide
  left_blanks := by decide
  right_blanks := by decide
  lists :=
    .cons (by decide) (by decide) (by decide) <|
    .cons (by decide) (by decide) (by decide) <|
    .cons (by decide) (by decide) (by decide) <|
    .nil (by decide)
  isLiteral := .braced (by decide) (by decide) (by decide)
  after_attributes := by
    intro a ha
    obtain rfl := List.mem_singleton.1 ha
    refine ⟨⟨" ".toList, "id".toList, " ".toList, " ".toList, "x\"y".toList, singleQuote, by decide, by decide,
      by decide, by decide, by decide, ?_, by decide, by decide⟩, by decide +kernel⟩
    have hname : ("id".toList.all fun c => c != '>' && !isQuote c) = true := by decide
    simpa using hname
  isEnding := .paired (by decide) (by decide) (by decide)

theorem oddSpelling_inline :
    oddSpelling.text = "<div\n\ttitle=\"a > b\"\r\n className =\t\x7b '".toList ++
        "\u00a0h-4 animate-spin\n rounded-full'\n\x7d id = 'x\"y' >\n</div >".toList ∧
      ClassList.tokens? oddSpelling.element.attributes =
        some ["h-4".toList, "animate-spin".toList, "rounded-full".toList] ∧
      (Catalog.standard.apply oddSpelling.text).text = "<LoadingInline />".toList := by
  obtain ⟨-, -, htokens, happly⟩ := spelling_reads Catalog.standard _ oddSpelling
  have hrule : (outcomeOf oddSpelling.element (Catalog.standard.rules.find?
      (·.accepts ["h-4".toList, "animate-spin".toList, "rounded-full".toList]))).text =
        "<LoadingInline />".toList := by decide +kernel
  exact ⟨by decide +kernel, htokens, by rw [happly, hrule]⟩

end SpinnerMarkup
