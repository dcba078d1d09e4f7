import Mathlib.Data.List.Infix
import SpinnerMarkup.Proofs.AttributeText

/-! Where a class list is read from.

An element is read with an eye to its strings; its class list is the first assignment to `className`
after a blank, whether it stands in a string or not. So an element without a `className` of its own may
still have a class list: the one that some text in a string of another attribute spells out.
`tokens?_eq_none_iff` says that nothing else can be taken for it: where the attributes with their
strings emptied hold no `className`, the element has no class list exactly when no string of it holds
an assignment. `title_taken_for_class` is an element with such a string. -/
namespace SpinnerMarkup

open Text

/-! ### Strings of a text -/

namespace Element

/-- A text whose strings have been emptied: of each only the marks are left. -/
def emptied (quote : Option Char) : Text → Text
  | [] => []
  | c :: s =>
    match quote with
    | some q => if c = q then c :: emptied none s else emptied (some q) s
    | none => c :: emptied (if isQuote c then some c else none) s

theorem emptied_append (quote : Option Char) (a b : Text) :
    emptied quote (a ++ b) = emptied quote a ++ emptied (openString quote a) b := by
  induction a generalizing quote with
  | nil => rfl
  | cons c a ih =>
    cases quote with
    | none => simp [emptied, openString, ih]
    | some q =>
      by_cases hc : c = q
      · simp [emptied, openString, hc, ih]
      · simp [emptied, openString, hc, ih]

/-- Emptying strings changes nothing where there is none. -/
theorem emptied_eq_self {w : Text} (h : ∀ c ∈ w, isQuote c = false) : emptied none w = w := by
  induction w with
  | nil => rfl
  | cons c w ih =>
    obtain ⟨hc, hw⟩ := List.forall_mem_cons.1 h
    simp [emptied, hc, ih hw]

theorem openString_append (quote : Option Char) (a b : Text) :
    openString quote (a ++ b) = openString (openString quote a) b := by
  induction a generalizing quote with
  | nil => rfl
  | cons c a ih =>
    cases quote with
    | none => exact ih _
    | some q => exact ih _

theorem openString_of_not_mem {q : Char} {w : Text} (h : q ∉ w) :
    openString (some q) w = some q := by
  induction w with
  | nil => rfl
  | cons c w ih =>
    obtain ⟨hc, hw⟩ : q ≠ c ∧ q ∉ w := by simpa using h
    rw [openString, if_neg hc.symm, ih hw]

/-- Where a string is open, its mark has opened it and has not come again. -/
theorem exists_opening {x : Text} {q : Char} (h : openString none x = some q) :
    ∃ a w, x = a ++ q :: w ∧ openString none a = none ∧ isQuote q = true ∧ q ∉ w := by
  induction x using List.reverseRecOn with
  | nil => cases h
  | append_singleton x c ih =>
    rw [openString_append] at h
    cases hx : openString none x with
    | none =>
      rw [hx] at h
      cases hc : isQuote c with
      | true =>
        obtain rfl : c = q := by simpa [openString, hc] using h
        exact ⟨x, [], rfl, hx, hc, by simp⟩
      | false => simp [openString, hc] at h
    | some q' =>
      rw [hx] at h
      by_cases hc : c = q'
      · simp [openString, hc] at h
      · obtain rfl : q' = q := by simpa [openString, hc] using h
        obtain ⟨a, w, rfl, ha, hq, hw⟩ := ih hx
        exact ⟨a, w ++ [c], by simp, ha, hq, by simp [hw, Ne.symm hc]⟩

/-- An open string that ends is closed by its mark. -/
theorem exists_closing {t : Text} {q : Char} (h : openString (some q) t = none) :
    ∃ v y, t = v ++ q :: y ∧ q ∉ v := by
  have hmem : q ∈ t := by
    by_contra hnot
    rw [openString_of_not_mem hnot] at h
    cases h
  exact List.eq_append_cons_of_mem hmem

/-- A string of a text: its marks, the value between them, and the text on both sides. -/
structure IsString (s before : Text) (mark : Char) (value after : Text) : Prop where
  split : s = before ++ mark :: (value ++ mark :: after)
  /-- The opening mark stands in no other string. -/
  opens : openString none before = none
  isQuote : isQuote mark = true
  closes : mark ∉ value

/-- A position where a string is open lies in a string. -/
theorem exists_isString {x t : Text} {q : Char} (hx : openString none x = some q)
    (ht : openString none (x ++ t) = none) :
    ∃ a w v y, x = a ++ q :: w ∧ t = v ++ q :: y ∧ q ∉ w ∧ IsString (x ++ t) a q (w ++ v) y := by
  obtain ⟨a, w, rfl, ha, hq, hw⟩ := exists_opening hx
  rw [openString_append, hx] at ht
  obtain ⟨v, y, rfl, hv⟩ := exists_closing ht
  have hclosed : q ∉ w ++ v := by
    rw [List.mem_append]
    exact not_or.2 ⟨hw, hv⟩
  exact ⟨a, w, v, y, rfl, rfl, hw, by simp, ha, hq, hclosed⟩

/-- A word that is gone when the strings are emptied stands in strings only. -/
theorem exists_open_of_emptied {word x t : Text} (hword : ∀ c ∈ word, isQuote c = false)
    (h : ¬ word <:+: emptied none (x ++ (word ++ t))) : ∃ q, openString none x = some q := by
  cases hx : openString none x with
  | some q => exact ⟨q, rfl⟩
  | none =>
    exfalso
    apply h
    rw [emptied_append, hx, emptied_append, emptied_eq_self hword, ← List.append_assoc]
    exact ⟨_, _, rfl⟩

end Element

/-! ### Assignments -/

namespace ClassList

open Element

/-- The attribute that holds a class list. -/
def attributeName : Text := ['c', 'l', 'a', 's', 's', 'N', 'a', 'm', 'e']

theorem attributeName_plain : ∀ c ∈ attributeName, isQuote c = false := by
  have h : (attributeName.all fun c => !isQuote c) = true := by decide
  simpa using h

theorem exists_of_assignment? {s value : Text} (h : assignment? s = some value) :
    ∃ t, s = attributeName ++ t := by
  unfold assignment? at h
  split at h
  · cases h
  · next t ht => exact ⟨t, after?_eq_some_iff.1 ht⟩

theorem exists_of_afterBlank? {s value : Text} (h : afterBlank? s = some value) :
    ∃ x b u, s = x ++ b :: u ∧ isBlank b = true ∧ assignment? u = some value := by
  induction s with
  | nil => cases h
  | cons c s ih =>
    have hlater : afterBlank? s = some value →
        ∃ x b u, c :: s = x ++ b :: u ∧ isBlank b = true ∧ assignment? u = some value := by
      intro hs
      obtain ⟨x, b, u, rfl, hb, hu⟩ := ih hs
      exact ⟨c :: x, b, u, rfl, hb, hu⟩
    rw [afterBlank?] at h
    split at h
    · next hc =>
      split at h
      · next value' hs =>
        obtain rfl := Option.some.inj h
        exact ⟨[], c, s, rfl, hc, hs⟩
      · exact hlater h
    · exact hlater h

/-- An assignment after a blank is not overlooked, though an earlier one may come first. -/
theorem afterBlank?_ne_none {x u value : Text} {b : Char} (hb : isBlank b = true)
    (hu : assignment? u = some value) : afterBlank? (x ++ b :: u) ≠ none := by
  induction x with
  | nil =>
    rw [List.nil_append, afterBlank?, if_pos hb, hu]
    exact Option.some_ne_none value
  | cons c x ih =>
    rw [List.cons_append, afterBlank?]
    split
    · split
      · exact Option.some_ne_none _
      · exact ih
    · exact ih

/-- The attributes of an element begin with a blank, if there are any. -/
theorem value?_of_read? {s : Text} {e : Element} (h : read? s = some e) :
    value? e.attributes = afterBlank? e.attributes := by
  have hnone : assignment? e.attributes = none := by
    obtain ⟨c, u, rfl, ⟨hc, e', -, rfl⟩ | ⟨-, n, -, rfl⟩⟩ := read?_cases h
    · refine Option.eq_none_iff_forall_ne_some.2 fun value hvalue => ?_
      obtain ⟨t, ht⟩ := exists_of_assignment? hvalue
      have hfirst : c = 'c' := (List.cons.inj ht).1
      exact ne_of_isBlank hc (by decide) hfirst
    · rfl
  rw [value?, hnone]

/-- A string of the attributes holds an assignment of the value. What is assigned may reach beyond the
string. -/
def AssignedIn (attributes value : Text) : Prop :=
  ∃ before mark w b u after, IsString attributes before mark (w ++ b :: u) after ∧
    isBlank b = true ∧ assignment? (u ++ mark :: after) = some value

/-- An assignment in a string gives the element a class list. -/
theorem value?_ne_none_of_assignedIn {s value : Text} {e : Element} (h : read? s = some e)
    (ha : AssignedIn e.attributes value) : value? e.attributes ≠ none := by
  obtain ⟨before, mark, w, b, u, after, hs, hb, hu⟩ := ha
  have hsplit : e.attributes = (before ++ mark :: w) ++ b :: (u ++ mark :: after) := by
    rw [hs.split]
    simp
  rw [value?_of_read? h, hsplit]
  exact afterBlank?_ne_none hb hu

/-- **An element without `className` outside its strings has its class list from a string.** -/
theorem assignedIn_of_value? {s value : Text} {e : Element} (h : read? s = some e)
    (hno : ¬ attributeName <:+: emptied none e.attributes) (hv : value? e.attributes = some value) :
    AssignedIn e.attributes value := by
  have hclosed := (read?_outside h).2
  rw [value?_of_read? h] at hv
  obtain ⟨x, b, u, hs, hb, hu⟩ := exists_of_afterBlank? hv
  obtain ⟨t, rfl⟩ := exists_of_assignment? hu
  have hsplit : e.attributes = (x ++ [b]) ++ (attributeName ++ t) := by simp [hs]
  rw [hsplit] at hno hclosed ⊢
  obtain ⟨q, hq⟩ := exists_open_of_emptied attributeName_plain hno
  obtain ⟨a, w, v, y, hx, hy, hw, hstring⟩ := exists_isString hq hclosed
  -- the blank before the assignment is no quotation mark, so it stands in the same string
  rcases List.eq_nil_or_concat w with rfl | ⟨w, d, rfl⟩
  · obtain ⟨-, hbq⟩ := List.append_inj' hx rfl
    have hquote := hstring.isQuote
    obtain rfl : b = q := by simpa using hbq
    rw [isQuote_of_isBlank hb] at hquote
    cases hquote
  · have hxd : x ++ [b] = (a ++ q :: w) ++ [d] := by simpa using hx
    obtain ⟨-, hbd⟩ := List.append_inj' hxd rfl
    obtain rfl : b = d := by simpa using hbd
    refine ⟨a, q, w, b, v, y, ?_, hb, by rw [← hy]; exact hu⟩
    simpa using hstring

end ClassList

/-- No rule replaces an element without a class list. -/
theorem Rule.replaces_of_tokens?_eq_none (r : Rule) {e : Element}
    (h : ClassList.tokens? e.attributes = none) : r.replaces e = false := by
  rw [replaces, h]
  rfl

open Element ClassList in
/-- **Where no `className` stands outside the strings, an element has no class list, and no rule
replaces it, exactly when no string of it holds an assignment.** A class list that it has all the same
is the value of such an assignment. -/
theorem tokens?_eq_none_iff (source : Text) (e : Element) (he : e ∈ pattern.occurrences source)
    (hno : ¬ attributeName <:+: emptied none e.attributes) :
    ((tokens? e.attributes = none ∧ ∀ c : Catalog, ∀ r ∈ c.rules, r.replaces e = false) ↔
        ∀ value, ¬ AssignedIn e.attributes value) ∧
      ∀ tokens, tokens? e.attributes = some tokens →
        ∃ value, AssignedIn e.attributes value ∧ words value = tokens := by
  have hread : read? e.source = some e := read?_of_mem_scan (mem_occurrences.1 he)
  refine ⟨⟨fun h value hassigned => ?_, fun h => ?_⟩, fun tokens htokens => ?_⟩
  · exact value?_ne_none_of_assignedIn hread hassigned (Option.map_eq_none_iff.1 h.1)
  · have hnone : value? e.attributes = none := Option.eq_none_iff_forall_ne_some.2
      fun value hvalue => h value (assignedIn_of_value? hread hno hvalue)
    have htokens : tokens? e.attributes = none := Option.map_eq_none_iff.2 hnone
    exact ⟨htokens, fun _ r _ => r.replaces_of_tokens?_eq_none htokens⟩
  · obtain ⟨value, hvalue, hwords⟩ := Option.map_eq_some_iff.1 htokens
    exact ⟨value, assignedIn_of_value? hread hno hvalue, hwords⟩

/-- An element whose strings name the attribute, one without a blank before it and one without a
literal after it. -/
def mentionedClass : Element :=
  ⟨" title=\"className='animate-spin'\" alt=' className=animate-spin '".toList, " />".toList⟩

open Element ClassList in
/-- Neither string assigns anything. -/
theorem mentionedClass_unassigned :
    mentionedClass ∈ pattern.occurrences mentionedClass.source ∧
      ¬ attributeName <:+: emptied none mentionedClass.attributes ∧
      ∀ value, ¬ AssignedIn mentionedClass.attributes value := by
  have hmem : mentionedClass ∈ pattern.occurrences mentionedClass.source := by decide +kernel
  have hno : ¬ attributeName <:+: emptied none mentionedClass.attributes := by decide +kernel
  have hnone : tokens? mentionedClass.attributes = none := by decide +kernel
  have hkept : ∀ c : Catalog, ∀ r ∈ c.rules, r.replaces mentionedClass = false :=
    fun _ r _ => r.replaces_of_tokens?_eq_none hnone
  exact ⟨hmem, hno, (tokens?_eq_none_iff _ mentionedClass hmem hno).1.1 ⟨hnone, hkept⟩⟩

/-- An element whose title holds an assignment. -/
def titledElement : Text := "<div title=' className=\"animate-spin\" ' />".toList

open Element ClassList in
/-- The title is taken for the class list, and the element is replaced. -/
theorem title_taken_for_class :
    (Catalog.standard.apply titledElement).text = "<LoadingCentered />".toList ∧
      ¬ ∀ source, ∀ e ∈ pattern.occurrences source,
        ¬ attributeName <:+: emptied none e.attributes → tokens? e.attributes = none := by
  refine ⟨by decide +kernel, fun h => ?_⟩
  have hnone := h titledElement ⟨" title=' className=\"animate-spin\" '".toList, " />".toList⟩
    (by decide +kernel) (by decide +kernel)
  exact absurd hnone (by decide +kernel)

end SpinnerMarkup
