import SpinnerMarkup.Proofs.JsonTokens

/-! Reading JSON texts.

A value is read with the blanks around it: a word, a string, a number, or the parts of a list or an object
with the commas between them. The reader takes exactly what the grammar allows, so it gives a value for a text
exactly when the text is a spelling of that value (`read?_eq_some_iff`): a text spells one value at most
(`Spells.unique`), and a value is read back from its written form (`read?_render`). Numbers are natural: a
sign, a fraction or an exponent is refused. -/
namespace SpinnerMarkup.Json

open Text

/-! ### Values -/

/-- Parts with commas between them, up to the mark that ends them. -/
def parts? {α : Type} (part? : Text → Option (α × Text)) (close : Char) :
    Nat → Text → Option (List α × Text)
  | 0, _ => none
  | n + 1, s =>
    match part? s with
    | none => none
    | some (a, t) =>
      match after? [close] t with
      | some u => some ([a], u)
      | none => (after? [','] t).bind fun u => (parts? part? close n u).map (Prod.map (List.cons a) id)

/-- A name, a colon and a value. -/
def field? (value? : Text → Option (Json × Text)) (s : Text) : Option ((Text × Json) × Text) :=
  match value? s with
  | some (.str name, ':' :: t) => (value? t).map (Prod.map (Prod.mk name) id)
  | _ => none

/-- What stands before a mark that closes: parts, or blanks if there are none. -/
def enclosed? {α : Type} (part? : Text → Option (α × Text)) (close : Char) (n : Nat) (s : Text) :
    Option (List α × Text) :=
  (parts? part? close n s).or ((after? [close] (s.dropWhile isGap)).map fun t => ([], t))

/-- The value that begins at the front of a text. -/
def front? (n : Nat) (value? : Text → Option (Json × Text)) : Text → Option (Json × Text)
  | 'n' :: 'u' :: 'l' :: 'l' :: t => some (.null, t)
  | 't' :: 'r' :: 'u' :: 'e' :: t => some (.bool true, t)
  | 'f' :: 'a' :: 'l' :: 's' :: 'e' :: t => some (.bool false, t)
  | '\x22' :: t => (string? n t).map (Prod.map .str id)
  | '[' :: t => (enclosed? value? ']' n t).map (Prod.map .arr id)
  | '\x7b' :: t => (enclosed? (field? value?) '\x7d' n t).map (Prod.map .obj id)
  | s => (number? s).map (Prod.map .num id)

/-- A value with the blanks around it. -/
def value? : Nat → Text → Option (Json × Text)
  | 0, _ => none
  | n + 1, s => (front? n (value? n) (s.dropWhile isGap)).map fun r => (r.1, r.2.dropWhile isGap)

/-- The value a whole text spells. -/
def read? (s : Text) : Option Json :=
  match value? (s.length + 1) s with
  | some (j, []) => some j
  | _ => none

/-! ### What is taken is spelled -/

theorem takes_parts? {α : Type} {part? : Text → Option (α × Text)} {R : α → Text → Prop}
    {P : List α → Text → Prop} (hpart : Takes part? R) (last : ∀ {a w}, R a w → P [a] w)
    (more : ∀ {a w l w'}, R a w → P l w' → P (a :: l) (w ++ ',' :: w')) (close : Char) (n : Nat) :
    Takes (parts? part? close n) fun l w => ∃ v, w = v ++ [close] ∧ P l v := by
  induction n with
  | zero =>
    intro s l t h
    cases h
  | succ n ih =>
    intro s l t h
    rw [parts?] at h
    split at h
    · cases h
    · next a t' ha =>
      obtain ⟨w, rfl, hw⟩ := hpart ha
      split at h
      · next u hclose =>
        obtain ⟨rfl, rfl⟩ := Prod.mk.inj (Option.some.inj h)
        obtain rfl := after?_eq_some_iff.1 hclose
        exact ⟨w ++ [close], by simp, w, rfl, last hw⟩
      · obtain ⟨u, hcomma, hmap⟩ := Option.bind_eq_some_iff.1 h
        obtain ⟨l', hrest, rfl⟩ := exists_of_map_eq_some hmap
        obtain rfl := after?_eq_some_iff.1 hcomma
        obtain ⟨_, rfl, v, rfl, hv⟩ := ih hrest
        exact ⟨w ++ ',' :: (v ++ [close]), by simp, w ++ ',' :: v, by simp, more hw hv⟩

theorem gap_takeWhile (s : Text) : Gap (s.takeWhile isGap) := List.all_eq_true.1 List.all_takeWhile

theorem takes_enclosed? {α : Type} {part? : Text → Option (α × Text)} {close : Char} {n : Nat}
    {P : List α → Text → Prop}
    (hparts : Takes (parts? part? close n) fun l w => ∃ v, w = v ++ [close] ∧ P l v) :
    Takes (enclosed? part? close n) fun l w => ∃ v, w = v ++ [close] ∧ (P l v ∨ l = [] ∧ Gap v) := by
  intro s l t h
  rcases Option.or_eq_some_iff.1 h with hsome | ⟨-, hnone⟩
  · obtain ⟨_, rfl, v, rfl, hv⟩ := hparts hsome
    exact ⟨v ++ [close], rfl, v, rfl, .inl hv⟩
  · obtain ⟨u, hclose, hl⟩ := Option.map_eq_some_iff.1 hnone
    obtain ⟨rfl, rfl⟩ := Prod.mk.inj hl
    exact ⟨_, after?_dropWhile_split hclose, _, rfl, .inr ⟨rfl, gap_takeWhile s⟩⟩

theorem Spells.fields_cons {e : Text × Json} {fields : List (Text × Json)} {w w' : Text}
    (he : Spells (.fields [e]) w) (hrest : Spells (.fields fields) w') :
    Spells (.fields (e :: fields)) (w ++ ',' :: w') := by
  cases he with
  | lastField hname hj => simpa using Spells.field hname hj hrest
  | field _ _ hnone => nomatch hnone

section Parts

variable {value? : Text → Option (Json × Text)} (hvalue : Takes value? fun j => Spells (.value j))

include hvalue in
theorem takes_field? : Takes (field? value?) fun e => Spells (.fields [e]) := by
  intro s e t h
  unfold field? at h
  split at h
  · next name u hname =>
    obtain ⟨j, hj, rfl⟩ := exists_of_map_eq_some h
    obtain ⟨v, rfl, hv⟩ := hvalue hname
    obtain ⟨w, rfl, hw⟩ := hvalue hj
    exact ⟨v ++ ':' :: w, by simp, .lastField hv hw⟩
  · cases h

include hvalue in
theorem takes_list? (n : Nat) :
    Takes (enclosed? value? ']' n) fun l w => Spells (.value (.arr l)) ('[' :: w) := by
  intro s l t h
  have hitems := takes_parts? (P := fun l => Spells (.items l)) hvalue .lastItem .item ']' n
  obtain ⟨_, rfl, v, rfl, hv | ⟨rfl, hgap⟩⟩ := takes_enclosed? hitems h
  · exact ⟨v ++ [']'], rfl, .arr hv⟩
  · exact ⟨v ++ [']'], rfl, .noItems hgap⟩

include hvalue in
theorem takes_object? (n : Nat) :
    Takes (enclosed? (field? value?) '\x7d' n) fun l w => Spells (.value (.obj l)) ('\x7b' :: w) := by
  intro s l t h
  have hfields :=
    takes_parts? (P := fun l => Spells (.fields l)) (takes_field? hvalue) id .fields_cons '\x7d' n
  obtain ⟨_, rfl, v, rfl, hv | ⟨rfl, hgap⟩⟩ := takes_enclosed? hfields h
  · exact ⟨v ++ ['\x7d'], rfl, .obj hv⟩
  · exact ⟨v ++ ['\x7d'], rfl, .noFields hgap⟩

include hvalue in
theorem takes_front? (n : Nat) : Takes (front? n value?) fun j => Spells (.value j) := by
  intro s j t h
  unfold front? at h
  split at h
  · obtain ⟨rfl, rfl⟩ := Prod.mk.inj (Option.some.inj h)
    exact ⟨_, rfl, .null⟩
  · obtain ⟨rfl, rfl⟩ := Prod.mk.inj (Option.some.inj h)
    exact ⟨_, rfl, .yes⟩
  · obtain ⟨rfl, rfl⟩ := Prod.mk.inj (Option.some.inj h)
    exact ⟨_, rfl, .no⟩
  · obtain ⟨r, hstring, rfl⟩ := exists_of_map_eq_some h
    obtain ⟨_, rfl, w, rfl, hw⟩ := takes_string? n hstring
    exact ⟨doubleQuote :: (w ++ [doubleQuote]), rfl, .str hw⟩
  · obtain ⟨items, hitems, rfl⟩ := exists_of_map_eq_some h
    obtain ⟨w, rfl, hw⟩ := takes_list? hvalue n hitems
    exact ⟨'[' :: w, rfl, hw⟩
  · obtain ⟨fields, hfields, rfl⟩ := exists_of_map_eq_some h
    obtain ⟨w, rfl, hw⟩ := takes_object? hvalue n hfields
    exact ⟨'\x7b' :: w, rfl, hw⟩
  · obtain ⟨m, hnumber, rfl⟩ := exists_of_map_eq_some h
    obtain ⟨w, rfl, hw⟩ := takes_number? hnumber
    exact ⟨w, rfl, .num hw⟩

end Parts

theorem takes_value? (n : Nat) : Takes (value? n) fun j => Spells (.value j) := by
  induction n with
  | zero =>
    intro s j t h
    cases h
  | succ n ih =>
    intro s j t h
    obtain ⟨⟨j', u⟩, hfront, hr⟩ := Option.map_eq_some_iff.1 h
    obtain ⟨rfl, rfl⟩ := Prod.mk.inj hr
    obtain ⟨w, hs, hw⟩ := takes_front? ih n hfront
    have hgaps := (hw.after_gap (gap_takeWhile u)).before_gap (gap_takeWhile s)
    refine ⟨s.takeWhile isGap ++ (w ++ u.takeWhile isGap), ?_, hgaps⟩
    calc s = s.takeWhile isGap ++ s.dropWhile isGap := List.takeWhile_append_dropWhile.symm
      _ = s.takeWhile isGap ++ (w ++ (u.takeWhile isGap ++ u.dropWhile isGap)) := by
        rw [hs, List.takeWhile_append_dropWhile]
      _ = s.takeWhile isGap ++ (w ++ u.takeWhile isGap) ++ u.dropWhile isGap := by simp

/-! ### What is spelled is read -/

/-- With fuel for its length, a spelling of a phrase is read as that phrase, whatever follows. Only a digit
must not follow a value: a number would go on. -/
def Reads : Phrase → Text → Prop
  | .value j, w => ∀ ⦃n : Nat⦄ ⦃t : Text⦄, w.length < n → Stops t →
      value? n (w ++ t) = some (j, t.dropWhile isGap)
  | .items items, w => ∀ ⦃n m : Nat⦄ ⦃t : Text⦄, w.length < n → w.length < m →
      parts? (value? n) ']' m (w ++ ']' :: t) = some (items, t)
  | .fields fields, w => ∀ ⦃n m : Nat⦄ ⦃t : Text⦄, w.length < n → w.length < m →
      parts? (field? (value? n)) '\x7d' m (w ++ '\x7d' :: t) = some (fields, t)

/-- A value whose spelling begins with no blank is read when it is read from the front. -/
theorem reads_front {j : Json} {c : Char} {w : Text} (hc : isGap c = false)
    (h : ∀ n t, (c :: w).length ≤ n → Stops t → front? n (value? n) (c :: (w ++ t)) = some (j, t)) :
    Reads (.value j) (c :: w) := by
  intro n t hn ht
  cases n with
  | zero => cases hn
  | succ n =>
    rw [List.cons_append, value?, List.dropWhile_cons_of_neg (by simp [hc]), h n t (Nat.le_of_lt_succ hn) ht]
    rfl

theorem reads_before {j : Json} {c : Char} {w : Text} (hc : isGap c = true) (h : Reads (.value j) w) :
    Reads (.value j) (c :: w) := by
  intro n t hn ht
  cases n with
  | zero => cases hn
  | succ n =>
    rw [← h (Nat.lt_of_succ_lt hn) ht, value?, value?, List.cons_append, List.dropWhile_cons_of_pos hc]

theorem isDigit_gap {c : Char} (h : isGap c = true) : isDigit c = false := by
  simp only [isGap, Bool.or_eq_true, beq_iff_eq] at h
  obtain ((rfl | rfl) | rfl) | rfl := h <;> rfl

theorem isGap_digit {c : Char} (h : isDigit c = true) : isGap c = false := by
  cases hgap : isGap c with
  | false => rfl
  | true => exact absurd h (by simp [isDigit_gap hgap])

theorem stops_cons {c : Char} (h : isDigit c = false) (t : Text) : Stops (c :: t) := by
  intro d hd
  obtain rfl := Option.some.inj hd
  exact h

theorem reads_after {j : Json} {c : Char} {w : Text} (hc : isGap c = true) (h : Reads (.value j) w) :
    Reads (.value j) (w ++ [c]) := by
  intro n t hn _
  rw [List.length_append, List.length_singleton] at hn
  rw [List.append_assoc, List.singleton_append, h (Nat.lt_of_succ_lt hn) (stops_cons (isDigit_gap hc) t),
    List.dropWhile_cons_of_pos hc]

theorem front?_digit {c : Char} (hc : isDigit c = true) (n : Nat) (value? : Text → Option (Json × Text))
    (s : Text) : front? n value? (c :: s) = (number? (c :: s)).map (Prod.map .num id) := by
  unfold front?
  split
  case h_7 => rfl
  all_goals
    -- the other readers begin with a mark or a letter
    next heq =>
      obtain ⟨rfl, -⟩ := List.cons.inj heq
      cases hc

theorem reads_num {n : Nat} {w : Text} (h : IsNumeral n w) : Reads (.value (.num n)) w := by
  cases w with
  | nil => exact absurd rfl h.ne_nil
  | cons c w =>
    have hc := h.ascii c (by simp)
    refine reads_front (isGap_digit hc) fun m t _ ht => ?_
    rw [front?_digit hc, ← List.cons_append, number?_append h ht]
    rfl

theorem reads_str {s w : Text} (h : SpellsChars s w) :
    Reads (.value (.str s)) (doubleQuote :: (w ++ [doubleQuote])) := by
  refine reads_front rfl fun n t hn _ => ?_
  simp only [List.length_cons, List.length_append] at hn
  have hread : (string? n (w ++ doubleQuote :: t)).map (Prod.map Json.str id) = some (.str s, t) := by
    rw [string?_append h (by omega)]
    rfl
  rw [List.append_assoc, List.singleton_append]
  exact hread

/-! ### Lists and objects are read -/

/-- The marks that stand after a value. -/
def isMark (c : Char) : Bool := c == ',' || c == ':' || c == ']' || c == '\x7d'

theorem isMark_plain {c : Char} (h : isMark c = true) : isGap c = false ∧ isDigit c = false := by
  simp only [isMark, Bool.or_eq_true, beq_iff_eq] at h
  obtain ((rfl | rfl) | rfl) | rfl := h <;> decide

theorem value?_mark {j : Json} {w : Text} (h : Reads (.value j) w) {n : Nat} (hn : w.length < n) {c : Char}
    (hc : isMark c = true) (t : Text) : value? n (w ++ c :: t) = some (j, c :: t) := by
  obtain ⟨hgap, hdigit⟩ := isMark_plain hc
  rw [h hn (stops_cons hdigit t), List.dropWhile_cons_of_neg (by simp [hgap])]

theorem field?_mark {name : Text} {j : Json} {v w : Text} {n : Nat} (hname : Reads (.value (.str name)) v)
    (hj : Reads (.value j) w) (hv : v.length < n) (hw : w.length < n) {c : Char} (hc : isMark c = true)
    (t : Text) : field? (value? n) (v ++ ':' :: (w ++ c :: t)) = some ((name, j), c :: t) := by
  simp only [field?, value?_mark hname hv (c := ':') rfl, value?_mark hj hw hc, Option.map_some,
    Prod.map_apply, id]

section Parts

variable {α : Type} {part? : Text → Option (α × Text)} {close : Char} {n : Nat} {s t u : Text} {a : α}

theorem parts?_last (h : part? s = some (a, close :: t)) :
    parts? part? close (n + 1) s = some ([a], t) := by
  simp [parts?, h, after?]

theorem parts?_more (hclose : close ≠ ',') {l : List α} (h : part? s = some (a, ',' :: t))
    (hrest : parts? part? close n t = some (l, u)) : parts? part? close (n + 1) s = some (a :: l, u) := by
  simp [parts?, h, after?, hclose, hrest]

theorem parts?_none (h : part? s = none) : parts? part? close n s = none := by
  cases n with
  | zero => rfl
  | succ n => simp [parts?, h]

theorem enclosed?_parts {l : List α} (h : parts? part? close n s = some (l, t)) :
    enclosed? part? close n s = some (l, t) := by
  rw [enclosed?, h, Option.some_or]

theorem enclosed?_gap {b : Text} (hb : Gap b) (hclose : isGap close = false)
    (h : part? (b ++ close :: t) = none) : enclosed? part? close n (b ++ close :: t) = some ([], t) := by
  rw [enclosed?, parts?_none h, dropWhile_stop hb hclose]
  simp [after?]

end Parts

theorem reads_lastItem {j : Json} {w : Text} (h : Reads (.value j) w) : Reads (.items [j]) w := by
  intro n m t hn hm
  cases m with
  | zero => cases hm
  | succ m => exact parts?_last (value?_mark h hn rfl t)

theorem reads_item {j : Json} {items : List Json} {w w' : Text} (hj : Reads (.value j) w)
    (hrest : Reads (.items items) w') : Reads (.items (j :: items)) (w ++ ',' :: w') := by
  intro n m t hn hm
  cases m with
  | zero => cases hm
  | succ m =>
    simp only [List.length_append, List.length_cons] at hn hm
    rw [List.append_assoc, List.cons_append]
    exact parts?_more (by decide) (value?_mark hj (by omega) rfl _) (hrest (by omega) (by omega))

theorem reads_lastField {name : Text} {j : Json} {v w : Text} (hname : Reads (.value (.str name)) v)
    (hj : Reads (.value j) w) : Reads (.fields [(name, j)]) (v ++ ':' :: w) := by
  intro n m t hn hm
  cases m with
  | zero => cases hm
  | succ m =>
    simp only [List.length_append, List.length_cons] at hn
    rw [List.append_assoc, List.cons_append]
    exact parts?_last (field?_mark hname hj (by omega) (by omega) rfl t)

theorem reads_field {name : Text} {j : Json} {fields : List (Text × Json)} {v w w' : Text}
    (hname : Reads (.value (.str name)) v) (hj : Reads (.value j) w) (hrest : Reads (.fields fields) w') :
    Reads (.fields ((name, j) :: fields)) (v ++ ':' :: (w ++ ',' :: w')) := by
  intro n m t hn hm
  cases m with
  | zero => cases hm
  | succ m =>
    simp only [List.length_append, List.length_cons] at hn hm
    rw [List.append_assoc, List.cons_append, List.append_assoc, List.cons_append]
    exact parts?_more (by decide) (field?_mark hname hj (by omega) (by omega) rfl _)
      (hrest (by omega) (by omega))

theorem reads_list {items : List Json} {w : Text}
    (h : ∀ n t, w.length < n → enclosed? (value? n) ']' n (w ++ ']' :: t) = some (items, t)) :
    Reads (.value (.arr items)) ('[' :: (w ++ [']'])) := by
  refine reads_front rfl fun n t hn _ => ?_
  simp only [List.length_cons, List.length_append] at hn
  rw [List.append_assoc, List.singleton_append]
  simp [front?, h n t (by omega)]

theorem reads_object {fields : List (Text × Json)} {w : Text}
    (h : ∀ n t, w.length < n → enclosed? (field? (value? n)) '\x7d' n (w ++ '\x7d' :: t) = some (fields, t)) :
    Reads (.value (.obj fields)) ('\x7b' :: (w ++ ['\x7d'])) := by
  refine reads_front rfl fun n t hn _ => ?_
  simp only [List.length_cons, List.length_append] at hn
  rw [List.append_assoc, List.singleton_append]
  simp [front?, h n t (by omega)]

/-- No value stands before a mark that closes. -/
theorem value?_close {b : Text} (hb : Gap b) {c : Char} (hc : c = ']' ∨ c = '\x7d') (n : Nat) (t : Text) :
    value? n (b ++ c :: t) = none := by
  cases n with
  | zero => rfl
  | succ n => rcases hc with rfl | rfl <;> rw [value?, dropWhile_stop hb rfl] <;> rfl

theorem field?_close {b : Text} (hb : Gap b) (n : Nat) (t : Text) :
    field? (value? n) (b ++ '\x7d' :: t) = none := by
  rw [field?, value?_close hb (.inr rfl)]

/-- **Every spelling of a phrase is read as that phrase.** -/
theorem Spells.reads {p : Phrase} {w : Text} (h : Spells p w) : Reads p w := by
  induction h with
  | null => exact reads_front rfl fun _ _ _ _ => rfl
  | yes => exact reads_front rfl fun _ _ _ _ => rfl
  | no => exact reads_front rfl fun _ _ _ _ => rfl
  | num hn => exact reads_num hn
  | str hs => exact reads_str hs
  | noItems hb => exact reads_list fun n t _ => enclosed?_gap hb rfl (value?_close hb (.inl rfl) n t)
  | arr _ ih => exact reads_list fun _ _ hn => enclosed?_parts (ih hn hn)
  | noFields hb => exact reads_object fun n t _ => enclosed?_gap hb rfl (field?_close hb n t)
  | obj _ ih => exact reads_object fun _ _ hn => enclosed?_parts (ih hn hn)
  | before hc _ ih => exact reads_before hc ih
  | after hc _ ih => exact reads_after hc ih
  | lastItem _ ih => exact reads_lastItem ih
  | item _ _ ihj ihrest => exact reads_item ihj ihrest
  | lastField _ _ ihname ihj => exact reads_lastField ihname ihj
  | field _ _ _ ihname ihj ihrest => exact reads_field ihname ihj ihrest

/-! ### Whole texts -/

/-- **The reader gives a value for a text exactly when the text is a spelling of that value.** -/
theorem read?_eq_some_iff {s : Text} {j : Json} : read? s = some j ↔ Spells (.value j) s := by
  constructor
  · intro h
    unfold read? at h
    split at h
    · next j' hvalue =>
      obtain rfl := Option.some.inj h
      obtain ⟨w, hs, hw⟩ := takes_value? _ hvalue
      rwa [hs, List.append_nil]
    · cases h
  · intro h
    have hvalue := h.reads (n := s.length + 1) (t := []) (Nat.lt_succ_self _) (by simp [Stops])
    rw [List.append_nil] at hvalue
    simp [read?, hvalue]

-- blanks around marks, and a character in two halves
example : read? " [ \"\\ud83d\\ude00\" , 10]\n".toList = some (.arr [.str ['😀'], .num 10]) := by rfl

/-- **A text spells one value at most.** -/
theorem Spells.unique {s : Text} {j j' : Json} (h : Spells (.value j) s) (h' : Spells (.value j') s) :
    j = j' :=
  Option.some.inj ((read?_eq_some_iff.2 h).symm.trans (read?_eq_some_iff.2 h'))

/-- **A value is read back from its written form.** -/
theorem read?_render (j : Json) : read? j.render = some j := read?_eq_some_iff.2 (spells_render j)

end SpinnerMarkup.Json
