import SpinnerMarkup.Proofs.ClassSource

/-! What a scan reports.

`IsElement` is the grammar of an empty element, and several elements may begin at one position: in
`<div a/></div>` the shorter one closes itself and the longer one takes the slash for an attribute. The
reader knows nothing of lengths; it walks on from character to character up to the first ending. The two
meet at the first closing mark outside strings, which every element at a position shares
(`tail_of_read?`): what is read is the shortest element that begins there, and where nothing is read no
element begins (`read?_ne_none`, `length_le_of_read?`). `scan_reports` says it of a whole scan. -/
namespace SpinnerMarkup

open Text

namespace Element

/-! ### The grammar -/

/-- What a tag may hold: closed strings, and between them neither a quotation mark nor a closing mark. -/
inductive Items : Text → Prop where
  | nil : Items []
  | char {c : Char} {s : Text} : c ≠ '>' → isQuote c = false → Items s → Items (c :: s)
  | string {q : Char} {v s : Text} : isQuote q = true → q ∉ v → Items s → Items (q :: (v ++ q :: s))

/-- The texts that are empty elements. -/
inductive IsElement : Text → Prop where
  | bare {n : Text} : IsEnding n → IsElement (opening ++ n)
  | attributed {c : Char} {w n : Text} : isBlank c = true → Items w → IsEnding n →
      IsElement (opening ++ c :: (w ++ n))

/-- Blanks, a closing tag and its blanks. -/
def IsCloseTag (z : Text) : Prop :=
  ∃ b b', Blanks b ∧ Blanks b' ∧ z = b ++ ['<', '/', 'd', 'i', 'v'] ++ b' ++ ['>']

/-! ### Items -/

theorem outside_of_not_mem {q : Char} {v : Text} (h : q ∉ v) : outside (some q) v = [] := by
  induction v with
  | nil => rfl
  | cons c v ih =>
    obtain ⟨hc, hv⟩ : q ≠ c ∧ q ∉ v := by simpa using h
    rw [outside, if_neg hc.symm, ih hv]

/-- **Items are the texts that leave no string open and hold no closing mark outside strings.** -/
theorem items_iff {s : Text} : Items s ↔ openString none s = none ∧ '>' ∉ outside none s := by
  constructor
  · intro h
    induction h with
    | nil => exact ⟨rfl, by simp [outside]⟩
    | char hc hq _ ih =>
      refine ⟨by simpa [openString, hq] using ih.1, ?_⟩
      simpa [outside, hq, hc.symm] using ih.2
    | @string q v s hq hv _ ih =>
      have hopen : openString none (q :: v) = some q := by
        simp [openString, hq, openString_of_not_mem hv]
      have hout : outside none (q :: v) = [] := by simp [outside, hq, outside_of_not_mem hv]
      rw [← List.cons_append, openString_append, outside_append, hopen, hout]
      simpa [openString, outside] using ih
  · rintro ⟨hopen, hmark⟩
    induction hn : s.length using Nat.strong_induction_on generalizing s with
    | _ n ih =>
      cases s with
      | nil => exact .nil
      | cons c s =>
        cases hq : isQuote c with
        | false =>
          have hne : c ≠ '>' := by
            rintro rfl
            simp [outside, hq] at hmark
          refine .char hne hq (ih s.length (by simp [← hn]) ?_ ?_ rfl)
          · simpa [openString, hq] using hopen
          · simp only [outside, hq, Bool.false_eq_true, if_false, List.mem_cons, not_or] at hmark
            exact hmark.2
        | true =>
          -- the string that opens here is closed further on
          have hopen' : openString (some c) s = none := by simpa [openString, hq] using hopen
          obtain ⟨v, y, rfl, hv⟩ := exists_closing hopen'
          have hlen : y.length < n := by
            rw [← hn, List.length_cons, List.length_append, List.length_cons]
            omega
          rw [openString_append, openString_of_not_mem hv] at hopen'
          rw [outside, if_pos hq, outside_append, outside_of_not_mem hv, openString_of_not_mem hv] at hmark
          refine .string hq hv (ih y.length hlen ?_ ?_ rfl)
          · simpa [openString] using hopen'
          · simpa [outside] using hmark

theorem Items.append {a b : Text} (ha : Items a) (hb : Items b) : Items (a ++ b) := by
  rw [items_iff] at ha hb ⊢
  rw [openString_append, outside_append, ha.1, List.mem_append]
  exact ⟨hb.1, not_or.2 ⟨ha.2, hb.2⟩⟩

theorem items_of_blanks {b : Text} (h : Blanks b) : Items b := by
  induction b with
  | nil => exact .nil
  | cons c b ih =>
    obtain ⟨hc, hb⟩ := List.forall_mem_cons.1 h
    exact .char (ne_of_isBlank hc (by decide)) (isQuote_of_isBlank hc) (ih hb)

theorem items_slash : Items ['/'] := .char (by decide) (by decide) .nil

/-! ### What closes an element -/

theorem closeTag?_eq_some_iff {y z : Text} :
    closeTag? y = some z ↔ IsCloseTag z ∧ ∃ r, y = z ++ r := by
  constructor
  · intro h
    refine ⟨?_, closeTag?_front h⟩
    unfold closeTag? at h
    split at h
    · cases h
    · split at h
      · cases h
      · exact ⟨_, _, blanks_takeWhile _, blanks_takeWhile _, (Option.some.inj h).symm⟩
  · rintro ⟨⟨b, b', hb, hb', rfl⟩, r, rfl⟩
    exact closeTag?_append hb hb' r

/-- What closes an element whose tag holds `x` before its first closing mark: that mark, and a closing
tag with it unless the mark comes right after a slash. -/
def close? (x y : Text) : Option Text :=
  if x.getLast? = some '/' then some ['>'] else (closeTag? y).map ('>' :: ·)

/-- A front that does not end with a slash closes nothing by itself. -/
theorem close?_append {a s : Text} (h : s = [] → a.getLast? ≠ some '/') (y : Text) :
    close? (a ++ s) y = close? s y := by
  by_cases hs : s = []
  · simp [close?, hs, h hs]
  · obtain ⟨w, c, rfl⟩ := (List.eq_nil_or_concat s).resolve_left hs
    simp [close?]

theorem ending?_mark (y : Text) : ending? ('>' :: y) = (closeTag? y).map ('>' :: ·) := by
  have h : ¬ isBlank '>' = true := by decide
  simp [ending?, List.dropWhile_cons_of_neg h, List.takeWhile_cons_of_neg h, after?]

/-- An ending goes up to the first closing mark and what closes the element there. -/
theorem exists_close_of_ending? {x y n : Text} (hx : Items x) (h : ending? (x ++ '>' :: y) = some n) :
    ∃ k, close? x y = some k ∧ n = x ++ k := by
  induction hx generalizing n with
  | nil =>
    rw [List.nil_append, ending?_mark] at h
    exact ⟨n, by simpa [close?] using h, rfl⟩
  | @char c s hc _ hs ih =>
    by_cases hb : isBlank c = true
    · rw [List.cons_append, ending?_blank hb] at h
      obtain ⟨n', hn', rfl⟩ := Option.map_eq_some_iff.1 h
      obtain ⟨k, hk, rfl⟩ := ih hn'
      have hslash : c ≠ '/' := ne_of_isBlank hb (by decide)
      refine ⟨k, ?_, rfl⟩
      rw [← List.singleton_append, close?_append (by simp [hslash]), hk]
    · by_cases hslash : c = '/'
      · subst hslash
        rw [List.cons_append, ending?_slash] at h
        obtain ⟨r, hr, rfl⟩ := Option.map_eq_some_iff.1 h
        -- the mark right after the slash is the first one
        cases hs with
        | nil => exact ⟨['>'], rfl, rfl⟩
        | char hd _ _ => simp [after?, hd.symm] at hr
        | string hq _ _ =>
          obtain ⟨rfl, -⟩ := List.cons.inj (after?_eq_some_iff.1 hr)
          exact absurd hq (by decide)
      · rw [List.cons_append, ending?_other (by simpa using hb) hslash hc] at h
        cases h
  | @string q v s hq _ _ _ =>
    have hother : ending? (q :: (v ++ q :: s) ++ '>' :: y) = none := by
      simp only [isQuote, Bool.or_eq_true, beq_iff_eq] at hq
      rcases hq with rfl | rfl <;> exact ending?_other (by decide) (by decide) (by decide) _
    rw [hother] at h
    cases h

/-! ### Reading up to the first closing mark -/

/-- The text of an element after `<div`. -/
def tail (e : Element) : Text := e.attributes ++ e.ending

theorem source_eq (e : Element) : e.source = opening ++ e.tail := List.append_assoc _ _ _

theorem tail_cons (c : Char) (e : Element) : (cons c e).tail = c :: e.tail := rfl

theorem map_tail_cons (c : Char) (o : Option Element) :
    (o.map (cons c)).map tail = (o.map tail).map (c :: ·) := by
  cases o <;> rfl

/-- The walk passes a string whole. -/
theorem walk?_through_string {q : Char} {v : Text} (hv : q ∉ v) (s : Text) :
    (walk? (some q) (v ++ q :: s)).map tail = ((walk? none s).map tail).map (v ++ q :: ·) := by
  induction v with
  | nil => rw [List.nil_append, walk?, if_pos rfl, map_tail_cons]; rfl
  | cons c v ih =>
    obtain ⟨hc, hv⟩ : q ≠ c ∧ q ∉ v := by simpa using hv
    rw [List.cons_append, walk?, if_neg hc.symm, map_tail_cons, ih hv, Option.map_map]
    rfl

/-- **The walk through items ends where the tag is closed.** -/
theorem walk?_items {x : Text} (hx : Items x) (y : Text) :
    (walk? none (x ++ '>' :: y)).map tail = (close? x y).map (x ++ ·) := by
  induction hx with
  | nil =>
    have hclose : close? [] y = ending? ('>' :: y) := by simp [close?, ending?_mark]
    rw [List.nil_append, walk?, hclose]
    cases ending? ('>' :: y) <;> simp [tail]
  | @char c s hc hq hs ih =>
    cases hend : ending? (c :: s ++ '>' :: y) with
    | some n =>
      obtain ⟨k, hk, rfl⟩ := exists_close_of_ending? (.char hc hq hs) hend
      rw [walk?_of_ending? hend, hk]
      rfl
    | none =>
      have hslash : s = [] → [c].getLast? ≠ some '/' := by
        rintro rfl hlast
        obtain rfl : c = '/' := by simpa using hlast
        simp [ending?_slash, after?] at hend
      have hclose : close? (c :: s) y = close? s y := close?_append (a := [c]) hslash y
      rw [List.cons_append] at hend ⊢
      rw [walk?, hend, hclose]
      dsimp only
      rw [if_neg hc, if_neg (by simp [hq]), map_tail_cons, ih, Option.map_map]
      rfl
  | @string q v s hq hv _ ih =>
    obtain ⟨hslash, hmark, hblank⟩ : q ≠ '/' ∧ q ≠ '>' ∧ isBlank q = false := by
      simp only [isQuote, Bool.or_eq_true, beq_iff_eq] at hq
      rcases hq with rfl | rfl <;> decide
    have hlast : (q :: v ++ [q]).getLast? ≠ some '/' := by
      rw [List.getLast?_concat]
      simpa using hslash
    have hclose : close? (q :: v ++ [q] ++ s) y = close? s y := close?_append (fun _ => hlast) y
    have hsplit : q :: (v ++ q :: s) = q :: v ++ [q] ++ s := by simp
    have hnext : q :: (v ++ q :: s) ++ '>' :: y = q :: (v ++ q :: (s ++ '>' :: y)) := by simp
    rw [hnext, hsplit, hclose, walk?, ending?_other hblank hslash hmark]
    dsimp only
    rw [if_neg hmark, if_pos hq, map_tail_cons, walk?_through_string hv, ih, Option.map_map,
      Option.map_map]
    simp [Function.comp_def]

/-- **What is read is closed at the first closing mark outside strings.** -/
theorem tail_of_read? {x y : Text} {e : Element} (hx : Items x)
    (h : read? (opening ++ (x ++ '>' :: y)) = some e) :
    ∃ k, close? x y = some k ∧ e.tail = x ++ k := by
  obtain ⟨c, u, hs, ⟨hc, e', he, rfl⟩ | ⟨hc, n, hn, rfl⟩⟩ := read?_cases h
  · have hu := List.append_cancel_left hs
    cases hx with
    | nil =>
      obtain ⟨rfl, -⟩ := List.cons.inj hu
      exact absurd hc (by decide)
    | @char d s _ _ hs' =>
      obtain ⟨rfl, hrest⟩ : d = c ∧ s ++ '>' :: y = u := List.cons.inj hu
      have hwalk := walk?_items hs' y
      rw [hrest, he] at hwalk
      obtain ⟨k, hk, htail⟩ := Option.map_eq_some_iff.1 hwalk.symm
      have hslash : d ≠ '/' := ne_of_isBlank hc (by decide)
      refine ⟨k, ?_, ?_⟩
      · rw [← List.singleton_append, close?_append (by simp [hslash]), hk]
      · rw [tail_cons, ← htail]
        rfl
    | string hq _ _ =>
      obtain ⟨rfl, -⟩ := List.cons.inj hu
      rw [isQuote_of_isBlank hc] at hq
      cases hq
  · rw [← List.append_cancel_left hs] at hn
    obtain ⟨k, hk, rfl⟩ := exists_close_of_ending? hx hn
    exact ⟨k, hk, rfl⟩

/-! ### Elements at a position -/

/-- Every element goes up to the first closing mark outside strings, and beyond it at most by a closing
tag. -/
theorem IsElement.exists_tag {t : Text} (h : IsElement t) :
    ∃ x z, t = opening ++ (x ++ '>' :: z) ∧ Items x ∧
      (x.getLast? = some '/' ∧ z = [] ∨ IsCloseTag z) := by
  have hend : ∀ {w n : Text}, Items w → IsEnding n → ∃ x z, w ++ n = x ++ '>' :: z ∧ Items x ∧
      (x.getLast? = some '/' ∧ z = [] ∨ IsCloseTag z) := by
    intro w n hw hn
    cases hn with
    | @selfClosing b hb =>
      refine ⟨w ++ (b ++ ['/']), [], by simp, hw.append ((items_of_blanks hb).append items_slash), .inl ?_⟩
      simp [List.getLast?_append]
    | @paired b b' b'' hb hb' hb'' =>
      exact ⟨w ++ b, _, by simp, hw.append (items_of_blanks hb), .inr ⟨b', b'', hb', hb'', rfl⟩⟩
  cases h with
  | @bare n hn =>
    obtain ⟨x, z, hxz, hx, hz⟩ := hend .nil hn
    exact ⟨x, z, by rw [← hxz]; rfl, hx, hz⟩
  | @attributed c w n hc hw hn =>
    obtain ⟨x, z, hxz, hx, hz⟩ :=
      hend (.char (ne_of_isBlank hc (by decide)) (isQuote_of_isBlank hc) hw) hn
    exact ⟨x, z, by rw [← hxz]; rfl, hx, hz⟩

/-- **Where an element begins, one is read.** -/
theorem read?_ne_none {t r : Text} (h : IsElement t) : read? (t ++ r) ≠ none := by
  have hattributed : ∀ {c : Char} {w n : Text}, isBlank c = true → Items w → IsEnding n →
      read? (opening ++ c :: (w ++ n) ++ r) ≠ none := by
    intro c w n hc hw hn hnone
    have hread : read? (opening ++ c :: (w ++ n ++ r)) = none := by simpa using hnone
    rw [read?_blank hc, Option.map_eq_none_iff] at hread
    cases hn with
    | @selfClosing b hb =>
      have hwalk := walk?_items (hw.append ((items_of_blanks hb).append items_slash)) r
      have hclose : close? (w ++ (b ++ ['/'])) r = some ['>'] := by
        simp [close?, List.getLast?_append]
      have hsplit : w ++ (b ++ ['/']) ++ '>' :: r = w ++ (b ++ ['/', '>']) ++ r := by simp
      rw [hsplit, hread, hclose] at hwalk
      cases hwalk
    | @paired b b' b'' hb hb' hb'' =>
      have hwalk := walk?_items (hw.append (items_of_blanks hb))
        (b' ++ ['<', '/', 'd', 'i', 'v'] ++ b'' ++ ['>'] ++ r)
      have hsplit : w ++ b ++ '>' :: (b' ++ ['<', '/', 'd', 'i', 'v'] ++ b'' ++ ['>'] ++ r) =
          w ++ (b ++ ['>'] ++ (b' ++ ['<', '/', 'd', 'i', 'v'] ++ b'' ++ ['>'])) ++ r := by simp
      rw [hsplit, hread, close?, closeTag?_append hb' hb''] at hwalk
      split at hwalk <;> cases hwalk
  cases h with
  | attributed hc hw hn => exact hattributed hc hw hn
  | @bare n hn =>
    obtain ⟨c, n, rfl⟩ := List.exists_cons_of_ne_nil hn.ne_nil
    cases hc : isBlank c with
    | false =>
      rw [List.append_assoc, List.cons_append, read?_nonblank hc, ← List.cons_append, ending?_append hn]
      exact Option.some_ne_none _
    | true =>
      -- the first blank of the ending can be taken for attributes
      have hn' : IsEnding n := by
        have hread := ending?_append hn []
        rw [List.append_nil, ending?_blank hc] at hread
        obtain ⟨n', hn', hcons⟩ := Option.map_eq_some_iff.1 hread
        obtain ⟨-, rfl⟩ := List.cons.inj hcons
        exact isEnding_of_ending? hn'
      exact hattributed hc .nil hn'

/-- What is read is an element. -/
theorem isElement_of_read? {s : Text} {e : Element} (h : read? s = some e) : IsElement e.source := by
  obtain ⟨c, u, rfl, ⟨hc, e', he, rfl⟩ | ⟨-, n, hn, rfl⟩⟩ := read?_cases h
  · have hitems : Items e'.attributes := items_iff.2 (walk?_outside he).symm
    exact .attributed hc hitems (walk?_isEnding (e := e') he)
  · rw [source_eq]
    exact .bare (isEnding_of_ending? hn)

/-- **What is read is the shortest element that begins there.** -/
theorem length_le_of_read? {s t : Text} {e : Element} (h : read? s = some e) (ht : IsElement t)
    (hfront : t <+: s) : e.source.length ≤ t.length := by
  obtain ⟨r, rfl⟩ := hfront
  obtain ⟨x, z, rfl, hx, hz⟩ := ht.exists_tag
  have hsplit : opening ++ (x ++ '>' :: z) ++ r = opening ++ (x ++ '>' :: (z ++ r)) := by simp
  rw [hsplit] at h
  obtain ⟨k, hk, htail⟩ := tail_of_read? hx h
  rw [source_eq, htail]
  unfold close? at hk
  split at hk
  · obtain rfl := Option.some.inj hk
    simp
  · next hslash =>
    obtain ⟨hlast, -⟩ | hclose := hz
    · exact absurd hlast hslash
    · rw [closeTag?_eq_some_iff.2 ⟨hclose, r, rfl⟩] at hk
      obtain rfl := Option.some.inj hk
      exact Nat.le_refl _

/-! ### The attributes -/

theorem walk?_string_ne_nil {q : Char} {s : Text} {e : Element} (h : walk? (some q) s = some e) :
    e.attributes ≠ [] := by
  cases s with
  | nil => cases h
  | cons c s =>
    obtain ⟨e', -, rfl⟩ := Option.map_eq_some_iff.1 h
    simp [cons]

/-- Blanks at the end are left to the ending. -/
theorem isBlank_last_of_walk? {quote : Option Char} (hquote : ∀ q ∈ quote, isQuote q = true) {s : Text}
    {e : Element} {d : Char} (h : walk? quote s = some e) (hd : e.attributes.getLast? = some d) :
    isBlank d = false := by
  induction s generalizing quote e with
  | nil => cases h
  | cons c s ih =>
    -- the last character is the first one, or the last of what the walk takes after it
    have hlast : ∀ {quote' : Option Char} {e' : Element}, (∀ q ∈ quote', isQuote q = true) →
        walk? quote' s = some e' → (e'.attributes = [] → isBlank c = false) → e = cons c e' →
        isBlank d = false := by
      rintro quote' e' hquote' he' hc rfl
      have hor : e'.attributes.getLast?.getD c = d := by
        simpa [cons, List.getLast?_cons] using hd
      cases hlast : e'.attributes.getLast? with
      | none =>
        rw [hlast] at hor
        exact hor ▸ hc (List.getLast?_eq_none_iff.1 hlast)
      | some d' =>
        rw [hlast] at hor
        obtain rfl : d' = d := hor
        exact ih hquote' he' hlast
    cases quote with
    | some q =>
      obtain ⟨e', he', rfl⟩ := Option.map_eq_some_iff.1 h
      by_cases hc : c = q
      · rw [if_pos hc] at he'
        exact hlast (by simp) he' (fun _ => hc ▸ isBlank_of_isQuote (hquote q rfl)) rfl
      · rw [if_neg hc] at he'
        exact hlast hquote he' (fun hnil => absurd hnil (walk?_string_ne_nil he')) rfl
    | none =>
      rw [walk?] at h
      split at h
      · obtain rfl := Option.some.inj h
        cases hd
      · next hnone =>
        split at h
        · cases h
        · obtain ⟨e', he', rfl⟩ := Option.map_eq_some_iff.1 h
          cases hq : isQuote c with
          | true =>
            rw [hq, if_pos rfl] at he'
            exact hlast (by simpa using hq) he' (fun _ => isBlank_of_isQuote hq) rfl
          | false =>
            rw [hq] at he'
            refine hlast (by simp) he' (fun hnil => ?_) rfl
            -- a blank before the ending would be part of it
            by_contra hb
            rw [ending?_blank (by simpa using hb), Option.map_eq_none_iff] at hnone
            exact (walk?_attributes he').1 hnone hnil

/-- A front of a text after which only blanks are left; it is not empty unless the text is. -/
structure Trims (a s : Text) : Prop where
  blanks : ∃ b, s = a ++ b ∧ Blanks b
  ne_nil : s ≠ [] → a ≠ []

/-- The attributes are the shortest such front of what stands before the closing marks. -/
theorem trims_attributes {s b : Text} {e : Element} (h : read? s = some e) (hb : Blanks b)
    (hfirst : e.attributes = [] → b = []) : Trims e.attributes (e.attributes ++ b) ∧
      ∀ a, Trims a (e.attributes ++ b) → e.attributes.length ≤ a.length := by
  refine ⟨⟨⟨b, rfl, hb⟩, fun hne hnil => hne (by rw [hnil, hfirst hnil]; rfl)⟩, fun a ha => ?_⟩
  obtain ⟨b', hab, hb'⟩ := ha.blanks
  rcases List.append_eq_append_iff.1 hab with ⟨a', rfl, -⟩ | ⟨a', hattributes, rfl⟩
  · simp
  · rcases List.eq_nil_or_concat a' with rfl | ⟨w, d, rfl⟩
    · simp [hattributes]
    · -- the last character of the attributes would be a blank
      exfalso
      have hd : isBlank d = true := hb' d (by simp)
      have hne : a ≠ [] := ha.ne_nil (by rw [hattributes]; simp)
      obtain ⟨c, a, rfl⟩ := List.exists_cons_of_ne_nil hne
      obtain ⟨c', u, rfl, ⟨-, e', he', rfl⟩ | ⟨-, n, -, rfl⟩⟩ := read?_cases h
      · obtain ⟨-, htail⟩ := List.cons.inj hattributes
        have hlast : e'.attributes.getLast? = some d := by simp [htail, List.getLast?_append]
        have hnot := isBlank_last_of_walk? (by simp) he' hlast
        rw [hd] at hnot
        cases hnot
      · cases hattributes

/-- Without attributes an ending follows `<div` directly. -/
theorem isBlank_ending_of_read? {s n : Text} {e : Element} {c : Char} (h : read? s = some e)
    (hnil : e.attributes = []) (hc : e.ending = c :: n) : isBlank c = false := by
  obtain ⟨d, u, rfl, ⟨-, e', -, rfl⟩ | ⟨hd, n', hn', rfl⟩⟩ := read?_cases h
  · cases hnil
  · obtain ⟨r, hr⟩ := ending?_front hn'
    have hn : n' = c :: n := hc
    rw [hn] at hr
    obtain ⟨rfl, -⟩ := List.cons.inj hr
    exact hd

/-- What stands between `<div` and the closing marks of a tag that holds `x` before its first `>`. -/
def attributePart (x : Text) : Text := if x.getLast? = some '/' then x.dropLast else x

/-- Where an element ends and what is taken for its attributes: the tag holds `x` before its first
closing mark outside strings, and the text goes on with `y` after that mark. -/
structure Delimited (e : Element) (rest x y : Text) : Prop where
  split : e.source ++ rest = opening ++ (x ++ '>' :: y)
  items : Items x
  /-- The slash stands outside strings, since no string is left open after it. -/
  selfClosed : x.getLast? = some '/' → e.source = opening ++ (x ++ ['>'])
  paired : x.getLast? ≠ some '/' → ∃ z, IsCloseTag z ∧ e.source = opening ++ (x ++ '>' :: z)
  trims : Trims e.attributes (attributePart x)
  shortest : ∀ a, Trims a (attributePart x) → e.attributes.length ≤ a.length

theorem exists_delimited {e : Element} {rest : Text} (h : read? (e.source ++ rest) = some e) :
    ∃ x y, Delimited e rest x y := by
  have hitems : Items e.attributes := items_iff.2 (read?_outside h).symm
  have hend := read?_isEnding h
  have hfirst : ∀ {b n : Text}, e.ending = b ++ n → Blanks b → e.attributes = [] → b = [] := by
    intro b n hn hb hnil
    cases b with
    | nil => rfl
    | cons c b =>
      have hc := isBlank_ending_of_read? h hnil hn
      rw [hb c (List.mem_cons_self ..)] at hc
      cases hc
  generalize hn : e.ending = n at hend
  cases hend with
  | @selfClosing b hb =>
    have hlast : (e.attributes ++ b ++ ['/']).getLast? = some '/' := List.getLast?_concat
    have hpart : attributePart (e.attributes ++ b ++ ['/']) = e.attributes ++ b := by
      rw [attributePart, if_pos hlast, List.dropLast_concat]
    obtain ⟨htrims, hshortest⟩ := trims_attributes h hb (hfirst hn hb)
    have hsource : e.source = opening ++ (e.attributes ++ b ++ ['/'] ++ ['>']) := by simp [source, hn]
    refine ⟨e.attributes ++ b ++ ['/'], rest, ?_, ?_, fun _ => hsource, fun hno => absurd hlast hno, ?_, ?_⟩
    · rw [hsource]
      simp
    · exact (hitems.append (items_of_blanks hb)).append items_slash
    · rwa [hpart]
    · rwa [hpart]
  | @paired b b' b'' hb hb' hb'' =>
    have hclose : IsCloseTag (b' ++ ['<', '/', 'd', 'i', 'v'] ++ b'' ++ ['>']) := ⟨b', b'', hb', hb'', rfl⟩
    have hsource : e.source = opening ++ (e.attributes ++ b ++
        '>' :: (b' ++ ['<', '/', 'd', 'i', 'v'] ++ b'' ++ ['>'])) := by simp [source, hn]
    have hx := hitems.append (items_of_blanks hb)
    have hsplit : e.source ++ rest = opening ++ (e.attributes ++ b ++
        '>' :: (b' ++ ['<', '/', 'd', 'i', 'v'] ++ b'' ++ ['>'] ++ rest)) := by
      rw [hsource]
      simp
    have hlast : (e.attributes ++ b).getLast? ≠ some '/' := by
      -- after a slash the element would be closed by the mark alone
      intro hlast
      rw [hsplit] at h
      obtain ⟨k, hk, htail⟩ := tail_of_read? hx h
      rw [close?, if_pos hlast] at hk
      obtain rfl := Option.some.inj hk
      rw [tail, hn] at htail
      simpa using congrArg List.length htail
    have hpart : attributePart (e.attributes ++ b) = e.attributes ++ b := if_neg hlast
    obtain ⟨htrims, hshortest⟩ := trims_attributes h hb (hfirst (by simpa using hn) hb)
    exact ⟨e.attributes ++ b, _, hsplit, hx, fun hyes => absurd hyes hlast, fun _ => ⟨_, hclose, hsource⟩,
      by rwa [hpart], by rwa [hpart]⟩

/-! ### Scans -/

/-- A piece with nothing but its text. -/
def span : Piece Element → Piece Text
  | .plain c => .plain c
  | .found e => .found e.source

/-- The leftmost shortest elements of a text: one is taken at the first position where any begins, and
the search goes on after its end. -/
inductive IsScan : Text → List (Piece Text) → Prop where
  | nil : IsScan [] []
  | plain {c : Char} {s : Text} {ps : List (Piece Text)} : (∀ t, IsElement t → ¬ t <+: c :: s) →
      IsScan s ps → IsScan (c :: s) (.plain c :: ps)
  | found {t s : Text} {ps : List (Piece Text)} : IsElement t →
      (∀ t', IsElement t' → t' <+: t ++ s → t.length ≤ t'.length) →
      IsScan s ps → IsScan (t ++ s) (.found t :: ps)

theorem isScan_spans (s : Text) : IsScan s ((pattern.scan s).map span) := by
  induction s using scanInduction with
  | nil => exact .nil
  | plain c s hr ih =>
    rw [scan_plain hr]
    refine .plain (fun t ht ⟨r, htr⟩ => ?_) ih
    rw [← htr] at hr
    exact read?_ne_none ht hr
  | found e s hr ih =>
    rw [scan_found hr]
    exact .found (isElement_of_read? hr) (fun t ht hfront => length_le_of_read? hr ht hfront) ih

theorem IsScan.spans_eq {s : Text} {ps : List (Piece Text)} (h : IsScan s ps) :
    (pattern.scan s).map span = ps := by
  induction h with
  | nil => rfl
  | @plain c s ps hno _ ih =>
    have hr : read? (c :: s) = none := by
      refine Option.eq_none_iff_forall_ne_some.2 fun e he => ?_
      obtain ⟨r, hr⟩ := read?_front he
      exact hno e.source (isElement_of_read? he) ⟨r, hr.symm⟩
    rw [scan_plain hr, List.map_cons, ih]
    rfl
  | @found t s ps ht hshort _ ih =>
    obtain ⟨e, he⟩ := Option.ne_none_iff_exists'.1 (read?_ne_none ht (r := s))
    obtain ⟨r, hr⟩ := read?_front he
    -- of two shortest fronts each is as long as the other
    have hle := length_le_of_read? he ht (List.prefix_append t s)
    have hge := hshort e.source (isElement_of_read? he) ⟨r, hr.symm⟩
    obtain ⟨rfl, rfl⟩ : t = e.source ∧ s = r := List.append_inj hr (Nat.le_antisymm hge hle)
    rw [scan_found he, List.map_cons, ih]
    rfl

/-- **A scan reports the leftmost shortest elements of a text and no others**, each with the shortest
attributes that leave only blanks before its closing marks. -/
theorem scan_reports (s : Text) :
    (∀ ps, IsScan s ps ↔ (pattern.scan s).map span = ps) ∧
      ∀ before e after, pattern.scan s = before ++ .found e :: after →
        ∃ x y, Delimited e (after.flatMap pattern.pieceSource) x y := by
  refine ⟨fun ps => ⟨IsScan.spans_eq, ?_⟩, fun before e after hscan => ?_⟩
  · rintro rfl
    exact isScan_spans s
  · have hmem : .found e ∈ pattern.scan s := by rw [hscan]; simp
    have hread := read?_source_append (read?_of_mem_scan hmem) (after.flatMap pattern.pieceSource)
    exact exists_delimited hread

/-- Two elements, the first of which may be read in two ways. -/
def slashes : Text := "<div a/></div><div title=\"a > b\" / ></div>".toList

/-- The first one ends at its slash; the other is closed by a tag, since a blank follows its slash. -/
theorem slashes_reported :
    (pattern.scan slashes).map span = .found "<div a/>".toList :: ("</div>".toList.map .plain ++
        [.found "<div title=\"a > b\" / ></div>".toList]) ∧
      IsScan slashes ((pattern.scan slashes).map span) ∧
      pattern.scan slashes = .found ⟨" a".toList, "/>".toList⟩ :: "</div>".toList.map .plain ++
        .found ⟨" title=\"a > b\" /".toList, " ></div>".toList⟩ :: [] ∧
      ∃ x y, Delimited ⟨" title=\"a > b\" /".toList, " ></div>".toList⟩ [] x y := by
  have hscan : pattern.scan slashes = .found ⟨" a".toList, "/>".toList⟩ :: "</div>".toList.map .plain ++
      .found ⟨" title=\"a > b\" /".toList, " ></div>".toList⟩ :: [] := by decide +kernel
  obtain ⟨hspans, hdelimited⟩ := scan_reports slashes
  exact ⟨by decide +kernel, (hspans _).2 rfl, hscan, hdelimited _ _ [] hscan⟩

end Element
end SpinnerMarkup
