import Mathlib.Tactic.SplitIfs
import SpinnerMarkup.Json
import SpinnerMarkup.Text.Decimal

/-! The grammar of JSON texts, and the written form of a value.

A value can be spelled in many ways: with blanks around every mark, and with each character of a string as
it is or behind a backslash, by a letter or by its number in hexadecimal, in two halves if the number is too
large for four digits. `Spells` is the grammar of all of them. The written form of a value is one of its
spellings (`spells_render`). -/
namespace SpinnerMarkup.Json

open Text

/-! ### The grammar -/

/-- A character that may stand around values and marks. -/
def isGap (c : Char) : Bool := c == ' ' || c == '\t' || c == '\n' || c == '\r'

/-- Characters that say nothing where a value or a mark may stand. -/
def Gap (s : Text) : Prop := ∀ c ∈ s, isGap c = true

/-- The value of a hexadecimal digit. -/
def hexValue? (c : Char) : Option Nat :=
  if isDigit c then some (c.toNat - 48)
  else if 'a' ≤ c ∧ c ≤ 'f' then some (c.toNat - 87)
  else if 'A' ≤ c ∧ c ≤ 'F' then some (c.toNat - 55)
  else none

/-- The letters that stand for a character behind a backslash. -/
def shortEscapes : List (Char × Char) :=
  [(doubleQuote, doubleQuote), ('\\', '\\'), ('/', '/'), ('b', '\x08'), ('f', '\x0c'), ('n', '\n'),
    ('r', '\r'), ('t', '\t')]

/-- A number as four hexadecimal digits behind a backslash and a `u`. -/
inductive SpellsUnit : Nat → Text → Prop where
  | digits {a b c d : Char} {x y z v : Nat} : hexValue? a = some x → hexValue? b = some y →
      hexValue? c = some z → hexValue? d = some v →
      SpellsUnit (((x * 16 + y) * 16 + z) * 16 + v) ['\\', 'u', a, b, c, d]

/-- The first half of a character whose number has more than four hexadecimal digits. -/
def highHalf (c : Char) : Nat := 0xD800 + (c.toNat - 0x10000) / 0x400

/-- The second half of such a character. -/
def lowHalf (c : Char) : Nat := 0xDC00 + (c.toNat - 0x10000) % 0x400

/-- The ways to write a character in a string. -/
inductive SpellsChar : Char → Text → Prop where
  | plain {c : Char} : c ≠ doubleQuote → c ≠ '\\' → 32 ≤ c.toNat → SpellsChar c [c]
  | short {c letter : Char} : (letter, c) ∈ shortEscapes → SpellsChar c ['\\', letter]
  | unit {c : Char} {w : Text} : SpellsUnit c.toNat w → SpellsChar c w
  | halves {c : Char} {v w : Text} : 0x10000 ≤ c.toNat → SpellsUnit (highHalf c) v →
      SpellsUnit (lowHalf c) w → SpellsChar c (v ++ w)

/-- The ways to write the characters of a string. -/
inductive SpellsChars : Text → Text → Prop where
  | nil : SpellsChars [] []
  | cons {c : Char} {s v w : Text} : SpellsChar c v → SpellsChars s w → SpellsChars (c :: s) (v ++ w)

/-- The digits of a number. Only zero begins with a zero. -/
structure IsNumeral (n : Nat) (s : Text) : Prop where
  ne_nil : s ≠ []
  ascii : ∀ c ∈ s, isDigit c = true
  value : digitsValue s = n
  lead : s.head? = some '0' → s = ['0']

/-- What a stretch of a JSON text stands for. -/
inductive Phrase where
  | value (j : Json)
  /-- The items of a list, between its brackets. -/
  | items (items : List Json)
  /-- The fields of an object, between its braces. -/
  | fields (fields : List (Text × Json))

/-- The texts that stand for a phrase. -/
inductive Spells : Phrase → Text → Prop where
  | null : Spells (.value .null) ['n', 'u', 'l', 'l']
  | yes : Spells (.value (.bool true)) ['t', 'r', 'u', 'e']
  | no : Spells (.value (.bool false)) ['f', 'a', 'l', 's', 'e']
  | num {n : Nat} {w : Text} : IsNumeral n w → Spells (.value (.num n)) w
  | str {s w : Text} : SpellsChars s w → Spells (.value (.str s)) (doubleQuote :: (w ++ [doubleQuote]))
  | noItems {b : Text} : Gap b → Spells (.value (.arr [])) ('[' :: (b ++ [']']))
  | arr {items : List Json} {w : Text} : Spells (.items items) w →
      Spells (.value (.arr items)) ('[' :: (w ++ [']']))
  | noFields {b : Text} : Gap b → Spells (.value (.obj [])) ('\x7b' :: (b ++ ['\x7d']))
  | obj {fields : List (Text × Json)} {w : Text} : Spells (.fields fields) w →
      Spells (.value (.obj fields)) ('\x7b' :: (w ++ ['\x7d']))
  | before {j : Json} {c : Char} {w : Text} : isGap c = true → Spells (.value j) w →
      Spells (.value j) (c :: w)
  | after {j : Json} {c : Char} {w : Text} : isGap c = true → Spells (.value j) w →
      Spells (.value j) (w ++ [c])
  | lastItem {j : Json} {w : Text} : Spells (.value j) w → Spells (.items [j]) w
  | item {j : Json} {items : List Json} {w w' : Text} : Spells (.value j) w → Spells (.items items) w' →
      Spells (.items (j :: items)) (w ++ ',' :: w')
  | lastField {name : Text} {j : Json} {v w : Text} : Spells (.value (.str name)) v →
      Spells (.value j) w → Spells (.fields [(name, j)]) (v ++ ':' :: w)
  | field {name : Text} {j : Json} {fields : List (Text × Json)} {v w w' : Text} :
      Spells (.value (.str name)) v → Spells (.value j) w → Spells (.fields fields) w' →
      Spells (.fields ((name, j) :: fields)) (v ++ ':' :: (w ++ ',' :: w'))

/-! ### Blanks around phrases -/

theorem Spells.cons {p : Phrase} {c : Char} {w : Text} (hc : isGap c = true) (h : Spells p w) :
    Spells p (c :: w) := by
  cases p with
  | value j => exact .before hc h
  | items =>
    cases h with
    | lastItem hj => exact .lastItem (.before hc hj)
    | item hj hrest => exact .item (.before hc hj) hrest
  | fields =>
    cases h with
    | lastField hname hj => exact .lastField (.before hc hname) hj
    | field hname hj hrest => exact .field (.before hc hname) hj hrest

theorem spells_items_snoc {c : Char} (hc : isGap c = true) {items : List Json} {w : Text} :
    Spells (.items items) w → Spells (.items items) (w ++ [c])
  | .lastItem hj => .lastItem (.after hc hj)
  | .item hj hrest => by
    rw [List.append_assoc, List.cons_append]
    exact .item hj (spells_items_snoc hc hrest)

theorem spells_fields_snoc {c : Char} (hc : isGap c = true) {fields : List (Text × Json)} {w : Text} :
    Spells (.fields fields) w → Spells (.fields fields) (w ++ [c])
  | .lastField hname hj => by
    rw [List.append_assoc, List.cons_append]
    exact .lastField hname (.after hc hj)
  | .field hname hj hrest => by
    rw [List.append_assoc, List.cons_append, List.append_assoc, List.cons_append]
    exact .field hname hj (spells_fields_snoc hc hrest)

theorem Spells.snoc {p : Phrase} {c : Char} {w : Text} (hc : isGap c = true) (h : Spells p w) :
    Spells p (w ++ [c]) := by
  cases p with
  | value j => exact .after hc h
  | items => exact spells_items_snoc hc h
  | fields => exact spells_fields_snoc hc h

theorem Spells.before_gap {p : Phrase} {b w : Text} (hb : Gap b) (h : Spells p w) : Spells p (b ++ w) := by
  induction b with
  | nil => exact h
  | cons c b ih =>
    obtain ⟨hc, hrest⟩ := List.forall_mem_cons.1 hb
    exact (ih hrest).cons hc

theorem Spells.after_gap {p : Phrase} {b w : Text} (hb : Gap b) (h : Spells p w) : Spells p (w ++ b) := by
  induction b generalizing w with
  | nil => simpa using h
  | cons c b ih =>
    obtain ⟨hc, hrest⟩ := List.forall_mem_cons.1 hb
    simpa using ih hrest (h.snoc hc)

/-! ### Strings and numbers as they are written -/

theorem hexValue?_hexDigit {n : Nat} (h : n < 16) : hexValue? (hexDigit n) = some n := by
  have hall : ∀ n < 16, hexValue? (hexDigit n) = some n := by decide +kernel
  exact hall n h

theorem spellsChar_escape (c : Char) : SpellsChar c (escape c) := by
  unfold escape
  split_ifs with hmark hb hf hn hr ht hcontrol
  · simp only [Bool.or_eq_true, decide_eq_true_eq] at hmark
    rcases hmark with rfl | rfl <;> exact .short (by decide)
  · subst hb
    exact .short (by decide)
  · subst hf
    exact .short (by decide)
  · subst hn
    exact .short (by decide)
  · subst hr
    exact .short (by decide)
  · subst ht
    exact .short (by decide)
  · have hzero : hexValue? '0' = some 0 := by decide
    have hunit := SpellsUnit.digits hzero hzero (hexValue?_hexDigit (n := c.toNat / 16) (by omega))
      (hexValue?_hexDigit (n := c.toNat % 16) (by omega))
    have hvalue : ((0 * 16 + 0) * 16 + c.toNat / 16) * 16 + c.toNat % 16 = c.toNat := by omega
    rw [hvalue] at hunit
    exact .unit hunit
  · simp only [Bool.or_eq_true, decide_eq_true_eq, not_or] at hmark
    exact .plain hmark.1 hmark.2 (by omega)

theorem spellsChars_flatMap (s : Text) : SpellsChars s (s.flatMap escape) := by
  induction s with
  | nil => exact .nil
  | cons c s ih => exact .cons (spellsChar_escape c) ih

theorem spells_quote (s : Text) : Spells (.value (.str s)) (quote s) := .str (spellsChars_flatMap s)

theorem digitsValue_ofNat (n : Nat) : digitsValue (ofNat n) = n := by
  have hdigits : Nat.ofDigitChars 10 (Nat.toDigits 10 n) 0 = n := Nat.ofDigitChars_ten_toDigits
  rw [Nat.ofDigitChars_eq_foldl] at hdigits
  exact hdigits

theorem head?_ofNat {n : Nat} (h : (ofNat n).head? = some '0') : ofNat n = ['0'] := by
  induction n using Nat.strongRecOn with
  | ind n ih =>
    rw [ofNat, Nat.toDigits_eq_if (by decide)] at h ⊢
    by_cases hsmall : n < 10
    · rw [if_pos hsmall] at h ⊢
      simpa using h
    · -- the digits of a tenth would be a lone zero
      rw [if_neg hsmall, List.head?_append, Option.or_of_isSome (by simp [Nat.toDigits_ne_nil])] at h
      have hvalue := digitsValue_ofNat (n / 10)
      rw [ih (n / 10) (by omega) h] at hvalue
      have hzero : digitsValue ['0'] = 0 := by decide
      omega

theorem isNumeral_ofNat (n : Nat) : IsNumeral n (ofNat n) where
  ne_nil := Nat.toDigits_ne_nil
  ascii c hc := by
    have hdigit := Nat.isDigit_of_mem_toDigits (by decide) (by decide) hc
    simpa [Char.isDigit, isDigit, Char.le_def] using hdigit
  value := digitsValue_ofNat n
  lead := head?_ofNat

/-! ### Values as they are written -/

theorem gap_indent (depth : Nat) : Gap (indent depth) := by
  intro c hc
  rw [List.eq_of_mem_replicate hc]
  decide

mutual

theorem spells_renderAt : ∀ (j : Json) (depth : Nat), Spells (.value j) (renderAt depth j)
  | .null, _ => .null
  | .bool true, _ => .yes
  | .bool false, _ => .no
  | .num n, _ => .num (isNumeral_ofNat n)
  | .str s, _ => spells_quote s
  | .arr [], _ => .noItems (b := []) (by simp [Gap])
  | .arr (item :: items), depth => by
    have hitems := spells_renderItems (item :: items) (depth + 1) (List.cons_ne_nil item items)
    have hpadded := (hitems.cons (c := '\n') rfl).after_gap (gap_indent depth)
    simpa [renderAt] using Spells.arr hpadded
  | .obj [], _ => .noFields (b := []) (by simp [Gap])
  | .obj (field :: fields), depth => by
    have hfields := spells_renderFields (field :: fields) (depth + 1) (List.cons_ne_nil field fields)
    have hpadded := (hfields.cons (c := '\n') rfl).after_gap (gap_indent depth)
    simpa [renderAt] using Spells.obj hpadded

theorem spells_renderItems : ∀ (items : List Json) (depth : Nat), items ≠ [] →
    Spells (.items items) (renderItems depth items)
  | [], _, h => absurd rfl h
  | [item], depth, _ => by
    have hitem := (spells_renderAt item depth).before_gap (gap_indent depth)
    simpa [renderItems] using Spells.lastItem (hitem.snoc (c := '\n') rfl)
  | item :: next :: items, depth, _ => by
    have hitem := (spells_renderAt item depth).before_gap (gap_indent depth)
    have hrest := spells_renderItems (next :: items) depth (List.cons_ne_nil next items)
    simpa [renderItems] using Spells.item hitem (hrest.cons (c := '\n') rfl)

theorem spells_renderFields : ∀ (fields : List (Text × Json)) (depth : Nat), fields ≠ [] →
    Spells (.fields fields) (renderFields depth fields)
  | [], _, h => absurd rfl h
  | [(name, j)], depth, _ => by
    have hname := (spells_quote name).before_gap (gap_indent depth)
    have hj := (spells_renderAt j depth).cons (c := ' ') rfl
    simpa [renderFields] using Spells.lastField hname (hj.snoc (c := '\n') rfl)
  | (name, j) :: next :: fields, depth, _ => by
    have hname := (spells_quote name).before_gap (gap_indent depth)
    have hj := (spells_renderAt j depth).cons (c := ' ') rfl
    have hrest := spells_renderFields (next :: fields) depth (List.cons_ne_nil next fields)
    simpa [renderFields] using Spells.field hname hj (hrest.cons (c := '\n') rfl)

end

/-- **The written form of a value is one of its spellings.** -/
theorem spells_render (j : Json) : Spells (.value j) j.render := spells_renderAt j 0

end SpinnerMarkup.Json
