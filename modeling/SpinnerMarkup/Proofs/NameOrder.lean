import Mathlib.Data.List.Sort
import SpinnerMarkup.Files.Scan

/-! The order of names is the order of their bytes.

Names are compared character by character. In UTF-8 a character with a greater number has greater
bytes: at the first byte where the two differ, and whatever follows (`utf8_lt`). So a name comes before
another exactly when its bytes do (`nameLe_iff`), and sorting by name puts values in the order of their
names' bytes (`sortByName_pairwise`). -/
namespace SpinnerMarkup

namespace Text

/-- The bytes of a text in UTF-8. -/
def bytes (s : Text) : List UInt8 := s.flatMap String.utf8EncodeChar

theorem byte_cons_lt_iff {m n : Nat} (hm : m < 256) (hn : n < 256) {s t : List UInt8} :
    UInt8.ofNat m :: s < UInt8.ofNat n :: t ↔ m < n ∨ m = n ∧ s < t := by
  rw [List.cons_lt_cons_iff, UInt8.lt_iff_toNat_lt, ← UInt8.toNat_inj, UInt8.toNat_ofNat_of_lt' hm,
    UInt8.toNat_ofNat_of_lt' hn]

/-- Two numbers differ at a first digit of six bits. -/
theorem digits_lt {m n : Nat} (h : m < n) :
    m / 262144 < n / 262144 ∨ m / 262144 = n / 262144 ∧
      (m / 4096 % 64 < n / 4096 % 64 ∨ m / 4096 % 64 = n / 4096 % 64 ∧
        (m / 64 % 64 < n / 64 % 64 ∨ m / 64 % 64 = n / 64 % 64 ∧ m % 64 < n % 64)) := by
  omega

/-- **A character with a greater number has greater bytes**, whatever follows. -/
theorem utf8_lt {a b : Char} (h : a.toNat < b.toNat) (s t : List UInt8) :
    String.utf8EncodeChar a ++ s < String.utf8EncodeChar b ++ t := by
  have hlt : a.val.toNat < b.val.toNat := h
  have hvalid : b.val.toNat < 0xd800 ∨ 0xdfff < b.val.toNat ∧ b.val.toNat < 0x110000 := b.valid
  have hdigits := digits_lt hlt
  have ha : a.val.toNat / 262144 % 8 = a.val.toNat / 262144 := Nat.mod_eq_of_lt (by omega)
  have hb : b.val.toNat / 262144 % 8 = b.val.toNat / 262144 := Nat.mod_eq_of_lt (by omega)
  unfold String.utf8EncodeChar
  dsimp only
  -- one case for each pair of lengths; those in the wrong order cannot occur
  split_ifs <;>
    simp (disch := omega) only [List.cons_append, List.nil_append, byte_cons_lt_iff] <;> omega

theorem bytes_cons (c : Char) (s : Text) : bytes (c :: s) = String.utf8EncodeChar c ++ bytes s := rfl

theorem bytes_nil_lt (c : Char) (s : Text) : bytes [] < bytes (c :: s) := by
  have hne : bytes (c :: s) ≠ [] := by
    rw [bytes_cons]
    exact List.append_ne_nil_of_left_ne_nil String.utf8EncodeChar_ne_nil _
  obtain ⟨b, bs, hb⟩ := List.exists_cons_of_ne_nil hne
  rw [hb]
  exact List.nil_lt_cons b bs

end Text

namespace Node

open Text

theorem nameLe_total (s t : Text) : nameLe s t = true ∨ nameLe t s = true := by
  induction s generalizing t with
  | nil => exact .inl rfl
  | cons a s ih =>
    cases t with
    | nil => exact .inr rfl
    | cons b t =>
      rw [nameLe, nameLe]
      rcases Nat.lt_trichotomy a.toNat b.toNat with h | h | h
      · simp [h]
      · obtain rfl := Char.toNat_inj.1 h
        simpa using ih t
      · simp [h]

theorem eq_or_bytes_lt_of_nameLe {s t : Text} (h : nameLe s t = true) : s = t ∨ bytes s < bytes t := by
  induction s generalizing t with
  | nil =>
    cases t with
    | nil => exact .inl rfl
    | cons b t => exact .inr (bytes_nil_lt b t)
  | cons a s ih =>
    cases t with
    | nil => cases h
    | cons b t =>
      simp only [nameLe, Bool.or_eq_true, Bool.and_eq_true, decide_eq_true_eq] at h
      rw [bytes_cons, bytes_cons]
      rcases h with h | ⟨rfl, h⟩
      · exact .inr (utf8_lt h _ _)
      · rcases ih h with rfl | hlt
        · exact .inl rfl
        · exact .inr (List.append_left_lt hlt)

/-- **Names stand in the order of their bytes.** -/
theorem nameLe_iff {s t : Text} : nameLe s t = true ↔ s = t ∨ bytes s < bytes t := by
  refine ⟨eq_or_bytes_lt_of_nameLe, fun h => ?_⟩
  rcases nameLe_total s t with hle | hle
  · exact hle
  · rcases eq_or_bytes_lt_of_nameLe hle with rfl | hlt
    · exact hle
    · rcases h with rfl | h
      · exact hle
      · exact absurd h (List.lt_asymm hlt)

theorem nameLe_trans {s t u : Text} (hst : nameLe s t = true) (htu : nameLe t u = true) :
    nameLe s u = true := by
  rw [nameLe_iff] at *
  rcases hst with rfl | hst
  · exact htu
  · rcases htu with rfl | htu
    · exact .inr hst
    · exact .inr (List.lt_trans hst htu)

/-! ### Sorting -/

variable {α : Type}

/-- Whether a named value may stand before another. -/
def NamedLe (e f : Text × α) : Prop := nameLe e.1 f.1 = true

instance : DecidableRel (NamedLe (α := α)) := fun e f => inferInstanceAs (Decidable (nameLe e.1 f.1 = true))

instance : Std.Total (NamedLe (α := α)) := ⟨fun e f => nameLe_total e.1 f.1⟩

instance : IsTrans (Text × α) NamedLe := ⟨fun _ _ _ => nameLe_trans⟩

theorem insertByName_eq (e : Text × α) (entries : List (Text × α)) :
    insertByName e entries = entries.orderedInsert NamedLe e := by
  induction entries with
  | nil => rfl
  | cons f entries ih =>
    rw [insertByName, List.orderedInsert_cons, ih]
    rfl

theorem sortByName_eq (entries : List (Text × α)) : sortByName entries = entries.insertionSort NamedLe := by
  induction entries with
  | nil => rfl
  | cons e entries ih =>
    rw [List.insertionSort_cons, ← ih, ← insertByName_eq]
    rfl

theorem sortByName_perm (entries : List (Text × α)) : (sortByName entries).Perm entries := by
  rw [sortByName_eq]
  exact List.perm_insertionSort NamedLe entries

/-- **Values with different names are sorted by the bytes of their names.** -/
theorem sortByName_pairwise {entries : List (Text × α)} (h : (entries.map Prod.fst).Nodup) :
    (sortByName entries).Pairwise fun e f => bytes e.1 < bytes f.1 := by
  have hle : (sortByName entries).Pairwise NamedLe := by
    rw [sortByName_eq]
    exact List.pairwise_insertionSort NamedLe entries
  have hne : (sortByName entries).Pairwise fun e f => e.1 ≠ f.1 :=
    List.pairwise_map.1 (((sortByName_perm entries).map Prod.fst).nodup_iff.2 h)
  exact (hle.and hne).imp fun {e f} h => (nameLe_iff.1 h.1).resolve_left h.2

end Node
end SpinnerMarkup
