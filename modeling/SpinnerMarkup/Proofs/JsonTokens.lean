import SpinnerMarkup.Proofs.JsonGrammar

/-! Reading the characters of a string and the digits of a number in a JSON text.

A reader takes from the front of a text what it reads and gives the rest back. What it takes is a spelling of
what it gives (`takes_char?`, `takes_string?`, `takes_number?`), and every spelling is taken
(`char?_append`, `string?_append`, `number?_append`). A string ends at its mark; a number ends where no digit
goes on. -/
namespace SpinnerMarkup.Json

open Text

/-- What the reader takes from a text is a spelling of what it gives. -/
def Takes {α : Type} (reader : Text → Option (α × Text)) (spells : α → Text → Prop) : Prop :=
  ∀ ⦃s : Text⦄ ⦃a : α⦄ ⦃t : Text⦄, reader s = some (a, t) → ∃ w, s = w ++ t ∧ spells a w

theorem exists_of_map_eq_some {α β : Type} {f : α → β} {r : Option (α × Text)} {b : β} {t : Text}
    (h : r.map (Prod.map f id) = some (b, t)) : ∃ a, r = some (a, t) ∧ f a = b := by
  obtain ⟨⟨a, t'⟩, hr, hb⟩ := Option.map_eq_some_iff.1 h
  obtain ⟨rfl, rfl⟩ := Prod.mk.inj hb
  exact ⟨a, hr, rfl⟩

/-! ### Characters of a string -/

/-- The number that four hexadecimal digits behind a backslash and a `u` write. -/
def unit? : Text → Option (Nat × Text)
  | '\\' :: 'u' :: a :: b :: c :: d :: s =>
    match hexValue? a, hexValue? b, hexValue? c, hexValue? d with
    | some x, some y, some z, some v => some (((x * 16 + y) * 16 + z) * 16 + v, s)
    | _, _, _, _ => none
  | _ => none

theorem unit?_append {n : Nat} {w : Text} (h : SpellsUnit n w) (t : Text) :
    unit? (w ++ t) = some (n, t) := by
  cases h with
  | digits ha hb hc hd => simp [unit?, ha, hb, hc, hd]

theorem takes_unit? : Takes unit? SpellsUnit := by
  intro s n t h
  unfold unit? at h
  split at h
  · split at h
    · next ha hb hc hd =>
      obtain ⟨rfl, rfl⟩ := Prod.mk.inj (Option.some.inj h)
      exact ⟨_, rfl, .digits ha hb hc hd⟩
    · cases h
  · cases h

theorem hexValue?_lt {c : Char} {x : Nat} (h : hexValue? c = some x) : x < 16 := by
  have hbound : ∀ last : Char, c ≤ last → c.toNat ≤ last.toNat := fun _ hle => hle
  unfold hexValue? at h
  split_ifs at h with hdigit hlower hupper <;> obtain rfl := Option.some.inj h
  · simp only [isDigit, Bool.and_eq_true, decide_eq_true_eq] at hdigit
    have hle : c.toNat ≤ 57 := hbound '9' hdigit.2
    omega
  · have hle : c.toNat ≤ 102 := hbound 'f' hlower.2
    omega
  · have hle : c.toNat ≤ 70 := hbound 'F' hupper.2
    omega

theorem SpellsUnit.lt {n : Nat} {w : Text} (h : SpellsUnit n w) : n < 0x10000 := by
  cases h with
  | digits ha hb hc hd =>
    have hx := hexValue?_lt ha
    have hy := hexValue?_lt hb
    have hz := hexValue?_lt hc
    have hv := hexValue?_lt hd
    omega

/-- A character behind a backslash that a letter stands for. -/
def short? : Text → Option (Char × Text)
  | '\\' :: letter :: t => (shortEscapes.find? fun e => e.1 == letter).map fun e => (e.2, t)
  | _ => none

/-- A character that is written by its number, in one unit or in two halves. -/
def coded? (s : Text) : Option (Char × Text) :=
  match unit? s with
  | none => none
  | some (n, t) =>
    if n < 0xD800 ∨ 0xDFFF < n then some (Char.ofNat n, t)
    else
      match unit? t with
      | none => none
      | some (m, u) =>
        if n < 0xDC00 ∧ 0xDC00 ≤ m ∧ m ≤ 0xDFFF then
          some (Char.ofNat (0x10000 + (n - 0xD800) * 0x400 + (m - 0xDC00)), u)
        else none

/-- A character that stands for itself. -/
def plain? : Text → Option (Char × Text)
  | [] => none
  | c :: t => if c = doubleQuote ∨ c = '\\' ∨ c.toNat < 32 then none else some (c, t)

/-- One character of a string. -/
def char? (s : Text) : Option (Char × Text) := (plain? s).or ((short? s).or (coded? s))

theorem char?_unit {n : Nat} {w : Text} (h : SpellsUnit n w) (t : Text) :
    char? (w ++ t) = coded? (w ++ t) := by
  cases h with
  | digits => simp [char?, plain?, short?, shortEscapes, doubleQuote]

/-- The numbers of the halves are no characters. -/
theorem char_toNat_range (c : Char) : c.toNat < 0xD800 ∨ 0xDFFF < c.toNat ∧ c.toNat < 0x110000 :=
  c.valid

theorem char?_append {c : Char} {w : Text} (h : SpellsChar c w) (t : Text) :
    char? (w ++ t) = some (c, t) := by
  have hrange := char_toNat_range c
  cases h with
  | plain hmark hslash hcontrol => simp [char?, plain?, hmark, hslash, hcontrol]
  | short hmem =>
    simp only [shortEscapes, List.mem_cons, Prod.mk.injEq, List.not_mem_nil, or_false] at hmem
    rcases hmem with ⟨rfl, rfl⟩ | ⟨rfl, rfl⟩ | ⟨rfl, rfl⟩ | ⟨rfl, rfl⟩ | ⟨rfl, rfl⟩ | ⟨rfl, rfl⟩ |
      ⟨rfl, rfl⟩ | ⟨rfl, rfl⟩ <;> rfl
  | unit hw =>
    rw [char?_unit hw]
    simp only [coded?, unit?_append hw]
    rw [if_pos (by omega), Char.ofNat_toNat]
  | halves hbig hv hw =>
    have hhigh : highHalf c = 0xD800 + (c.toNat - 0x10000) / 0x400 := rfl
    have hlow : lowHalf c = 0xDC00 + (c.toNat - 0x10000) % 0x400 := rfl
    have hsum : 0x10000 + (highHalf c - 0xD800) * 0x400 + (lowHalf c - 0xDC00) = c.toNat := by omega
    rw [List.append_assoc, char?_unit hv]
    simp only [coded?, unit?_append hv, unit?_append hw]
    rw [if_neg (by omega), if_pos (by omega), hsum, Char.ofNat_toNat]

theorem toNat_ofNat {n : Nat} (h : n < 0xD800 ∨ 0xDFFF < n ∧ n < 0x110000) :
    (Char.ofNat n).toNat = n := by
  rw [Char.ofNat, dif_pos h]
  rfl

theorem takes_coded? : Takes coded? SpellsChar := by
  intro s c u h
  unfold coded? at h
  split at h
  · cases h
  · next n t hn =>
    obtain ⟨v, rfl, hv⟩ := takes_unit? hn
    have hlt := hv.lt
    split_ifs at h with hsingle
    · obtain ⟨rfl, rfl⟩ := Prod.mk.inj (Option.some.inj h)
      exact ⟨v, rfl, .unit (by rwa [toNat_ofNat (by omega)])⟩
    · split at h
      · cases h
      · next m u' hm =>
        obtain ⟨w, rfl, hw⟩ := takes_unit? hm
        split_ifs at h with hpair
        obtain ⟨rfl, rfl⟩ := Prod.mk.inj (Option.some.inj h)
        have hnat := toNat_ofNat (n := 0x10000 + (n - 0xD800) * 0x400 + (m - 0xDC00)) (by omega)
        refine ⟨v ++ w, by simp, .halves (by omega) ?_ ?_⟩
        · have hhigh : (0x10000 + (n - 0xD800) * 0x400 + (m - 0xDC00) - 0x10000) / 0x400 = n - 0xD800 := by
            omega
          rwa [highHalf, hnat, hhigh, Nat.add_sub_cancel' (by omega)]
        · have hlow : (0x10000 + (n - 0xD800) * 0x400 + (m - 0xDC00) - 0x10000) % 0x400 = m - 0xDC00 := by
            omega
          rwa [lowHalf, hnat, hlow, Nat.add_sub_cancel' (by omega)]

theorem takes_short? : Takes short? SpellsChar := by
  intro s c t h
  unfold short? at h
  split at h
  · next letter t' =>
    obtain ⟨⟨letter', c'⟩, hfind, hc⟩ := Option.map_eq_some_iff.1 h
    obtain ⟨rfl, rfl⟩ := Prod.mk.inj hc
    have hletter := List.find?_some hfind
    obtain rfl : letter' = letter := by simpa using hletter
    exact ⟨_, rfl, .short (List.mem_of_find?_eq_some hfind)⟩
  · cases h

theorem takes_plain? : Takes plain? SpellsChar := by
  intro s c t h
  unfold plain? at h
  split at h
  · cases h
  · split_ifs at h with hspecial
    obtain ⟨rfl, rfl⟩ := Prod.mk.inj (Option.some.inj h)
    simp only [not_or, Nat.not_lt] at hspecial
    exact ⟨[_], rfl, .plain hspecial.1 hspecial.2.1 hspecial.2.2⟩

theorem takes_char? : Takes char? SpellsChar := by
  intro s c t h
  rcases Option.or_eq_some_iff.1 h with hplain | ⟨-, hescaped⟩
  · exact takes_plain? hplain
  · rcases Option.or_eq_some_iff.1 hescaped with hshort | ⟨-, hcoded⟩
    · exact takes_short? hshort
    · exact takes_coded? hcoded

/-! ### Strings and numbers -/

/-- The characters of a string up to the mark that ends it. -/
def string? : Nat → Text → Option (Text × Text)
  | 0, _ => none
  | n + 1, s =>
    match char? s with
    | some (c, t) => (string? n t).map (Prod.map (List.cons c) id)
    | none => (after? [doubleQuote] s).map fun t => ([], t)

theorem char?_mark (t : Text) : char? (doubleQuote :: t) = none := rfl

theorem SpellsUnit.length_eq {n : Nat} {w : Text} (h : SpellsUnit n w) : w.length = 6 := by
  cases h with
  | digits => rfl

theorem SpellsChar.length_pos {c : Char} {w : Text} (h : SpellsChar c w) : 0 < w.length := by
  cases h with
  | plain => simp
  | short => simp
  | unit hw => simp [hw.length_eq]
  | halves _ hv _ => rw [List.length_append, hv.length_eq]; omega

theorem string?_append {s w : Text} (h : SpellsChars s w) {n : Nat} (hn : w.length < n) (t : Text) :
    string? n (w ++ doubleQuote :: t) = some (s, t) := by
  induction h generalizing n with
  | nil =>
    cases n with
    | zero => cases hn
    | succ n =>
      rw [List.nil_append, string?, char?_mark]
      rfl
  | @cons c s v w hc hs ih =>
    cases n with
    | zero => cases hn
    | succ n =>
      have hpos := hc.length_pos
      rw [List.length_append] at hn
      simp only [string?, List.append_assoc, char?_append hc, ih (n := n) (by omega), Option.map_some,
        Prod.map_apply, id]

theorem takes_string? (n : Nat) :
    Takes (string? n) fun s w => ∃ v, w = v ++ [doubleQuote] ∧ SpellsChars s v := by
  induction n with
  | zero =>
    intro s r t h
    cases h
  | succ n ih =>
    intro s r t h
    rw [string?] at h
    split at h
    · next c u hc =>
      obtain ⟨r, hrest, rfl⟩ := exists_of_map_eq_some h
      obtain ⟨w, rfl, hw⟩ := takes_char? hc
      obtain ⟨_, rfl, v, rfl, hv⟩ := ih hrest
      exact ⟨w ++ (v ++ [doubleQuote]), by simp, w ++ v, by simp, .cons hw hv⟩
    · obtain ⟨t', hmark, hr⟩ := Option.map_eq_some_iff.1 h
      obtain ⟨rfl, rfl⟩ := Prod.mk.inj hr
      exact ⟨[doubleQuote], after?_eq_some_iff.1 hmark, [], rfl, .nil⟩

/-- The number whose digits a text begins with. -/
def number? (s : Text) : Option (Nat × Text) :=
  let digits := s.takeWhile isDigit
  if digits = [] ∨ digits.head? = some '0' ∧ digits ≠ ['0'] then none
  else some (digitsValue digits, s.dropWhile isDigit)

/-- No digit goes on at the front. -/
def Stops (t : Text) : Prop := ∀ c ∈ t.head?, isDigit c = false

theorem number?_append {n : Nat} {w t : Text} (h : IsNumeral n w) (ht : Stops t) :
    number? (w ++ t) = some (n, t) := by
  have htake : t.takeWhile isDigit = [] := by
    cases t with
    | nil => rfl
    | cons c t => exact List.takeWhile_cons_of_neg (by simp [ht c rfl])
  have hdrop : t.dropWhile isDigit = t := by
    cases t with
    | nil => rfl
    | cons c t => exact List.dropWhile_cons_of_neg (by simp [ht c rfl])
  have hlead : ¬(w = [] ∨ w.head? = some '0' ∧ w ≠ ['0']) := fun hbad =>
    hbad.elim h.ne_nil fun hzero => hzero.2 (h.lead hzero.1)
  simp only [number?, List.takeWhile_append_of_pos h.ascii, List.dropWhile_append_of_pos h.ascii, htake,
    hdrop, List.append_nil, if_neg hlead, h.value]

theorem takes_number? : Takes number? IsNumeral := by
  intro s n t h
  simp only [number?] at h
  split_ifs at h with hbad
  obtain ⟨rfl, rfl⟩ := Prod.mk.inj (Option.some.inj h)
  rw [not_or, not_and, Classical.not_not] at hbad
  exact ⟨s.takeWhile isDigit, (List.takeWhile_append_dropWhile).symm,
    ⟨hbad.1, List.all_eq_true.1 List.all_takeWhile, rfl, hbad.2⟩⟩

end SpinnerMarkup.Json
