import Mathlib.Logic.Relation
import SpinnerMarkup.Catalog

/-! Class tokens in any order, among any others.

A rule asks of a class list which tokens are in it, and how large the spinner is. The size is found by a
search, the kinds of size tokens outside and the tokens inside, so it could depend on where tokens stand.
It does not once every kind writes one size (`OneSizeEach`): what the search finds is then a matter of
which tokens there are (`size?_congr`). So moving tokens, and putting in or taking out tokens that a rule
does not mind, leaves the rule's answer as it is (`accepts_edited`). -/
namespace SpinnerMarkup

namespace Text

/-- Digits that write a number of at most thirty-two bits. -/
structure Digits (n : Nat) (s : Text) : Prop where
  ne_nil : s ≠ []
  ascii : ∀ c ∈ s, isDigit c = true
  value : digitsValue s = n
  fits : n ≤ maxDecimal

/-- The texts that write a number: its digits, behind a plus sign or nothing. -/
inductive IsDecimal (n : Nat) : Text → Prop where
  | plain {s : Text} : Digits n s → IsDecimal n s
  | plus {s : Text} : Digits n s → IsDecimal n ('+' :: s)

theorem digits_iff {n : Nat} {s : Text} :
    (if s ≠ [] ∧ s.all isDigit ∧ digitsValue s ≤ maxDecimal then some (digitsValue s) else none) = some n ↔
      Digits n s := by
  rw [Option.ite_none_right_eq_some, List.all_eq_true, Option.some_inj]
  constructor
  · rintro ⟨⟨hne, hascii, hfits⟩, rfl⟩
    exact ⟨hne, hascii, rfl, hfits⟩
  · rintro ⟨hne, hascii, rfl, hfits⟩
    exact ⟨⟨hne, hascii, hfits⟩, rfl⟩

/-- **The texts that are read as a number are those that write it.** -/
theorem decimal?_eq_some_iff {s : Text} {n : Nat} : decimal? s = some n ↔ IsDecimal n s := by
  unfold decimal?
  dsimp only
  split
  · next rest =>
    rw [digits_iff]
    refine ⟨.plus, fun h => ?_⟩
    cases h with
    | plain h => exact absurd (h.ascii '+' (List.mem_cons_self ..)) (by decide)
    | plus h => exact h
  · next hplus =>
    rw [digits_iff]
    refine ⟨.plain, fun h => ?_⟩
    cases h with
    | plain h => exact h
    | plus h => exact absurd rfl (hplus _)

end Text

/-! ### Sizes -/

namespace Spinner

open Text

/-- A token that writes a size of a kind: the beginning of that kind and a number. -/
def IsSize (kind : Text) (n : Nat) (token : Text) : Prop := ∃ rest, token = kind ++ rest ∧ IsDecimal n rest

theorem sizeOf?_eq_some_iff {kind token : Text} {n : Nat} :
    sizeOf? kind token = some n ↔ IsSize kind n token := by
  rw [sizeOf?, Option.bind_eq_some_iff]
  simp only [after?_eq_some_iff, decimal?_eq_some_iff]
  rfl

/-- Every kind of size tokens writes one size only, however often. -/
def OneSizeEach (tokens : List Text) : Prop :=
  ∀ kind ∈ sizeKinds, ∀ t ∈ tokens, ∀ t' ∈ tokens, ∀ n n', IsSize kind n t → IsSize kind n' t' → n = n'

instance (tokens : List Text) : Decidable (OneSizeEach tokens) :=
  decidable_of_iff (∀ kind ∈ sizeKinds, ∀ t ∈ tokens, ∀ t' ∈ tokens,
      ∀ n ∈ sizeOf? kind t, ∀ n' ∈ sizeOf? kind t', n = n') <| by
    simp only [OneSizeEach, Option.mem_def, sizeOf?_eq_some_iff]
    exact forall₂_congr fun _ _ => forall₂_congr fun _ _ => forall₂_congr fun _ _ =>
      ⟨fun h n n' hn hn' => h n hn n' hn', fun h n hn n' hn' => h n n' hn hn'⟩

theorem findSome?_sizeOf?_congr {kind : Text} {xs ys : List Text}
    (hone : ∀ t ∈ xs, ∀ t' ∈ xs, ∀ n n', IsSize kind n t → IsSize kind n' t' → n = n')
    (h : ∀ t n, IsSize kind n t → (t ∈ xs ↔ t ∈ ys)) :
    xs.findSome? (sizeOf? kind) = ys.findSome? (sizeOf? kind) := by
  cases hys : ys.findSome? (sizeOf? kind) with
  | none =>
    rw [List.findSome?_eq_none_iff] at hys ⊢
    intro t ht
    rw [Option.eq_none_iff_forall_ne_some]
    intro n hn
    have hmem : t ∈ ys := (h t n (sizeOf?_eq_some_iff.1 hn)).1 ht
    rw [hys t hmem] at hn
    cases hn
  | some n =>
    obtain ⟨t, ht, hn⟩ := List.exists_of_findSome?_eq_some hys
    have hsize := sizeOf?_eq_some_iff.1 hn
    have hmem : t ∈ xs := (h t n hsize).2 ht
    -- the search of `xs` finds a size as well, perhaps in another token, but the same one
    have hsome : (xs.findSome? (sizeOf? kind)).isSome = true :=
      List.findSome?_isSome_iff.2 ⟨t, hmem, by rw [hn]; rfl⟩
    obtain ⟨n', hn'⟩ := Option.isSome_iff_exists.1 hsome
    obtain ⟨t', ht', hfound⟩ := List.exists_of_findSome?_eq_some hn'
    rw [hn', hone t' ht' t hmem n' n (sizeOf?_eq_some_iff.1 hfound) hsize]

/-- **Where every kind writes one size, the size is a matter of which size tokens there are.** -/
theorem size?_congr {xs ys : List Text} (hone : OneSizeEach xs)
    (h : ∀ kind ∈ sizeKinds, ∀ t n, IsSize kind n t → (t ∈ xs ↔ t ∈ ys)) : size? xs = size? ys := by
  have hkind : ∀ kind ∈ sizeKinds, xs.findSome? (sizeOf? kind) = ys.findSome? (sizeOf? kind) :=
    fun kind hkind => findSome?_sizeOf?_congr (hone kind hkind) (h kind hkind)
  calc size? xs = (sizeKinds.map fun kind => xs.findSome? (sizeOf? kind)).findSome? id := by
        rw [List.findSome?_map]
        rfl
    _ = (sizeKinds.map fun kind => ys.findSome? (sizeOf? kind)).findSome? id := by
        rw [List.map_congr_left hkind]
    _ = size? ys := by
        rw [List.findSome?_map]
        rfl

end Spinner

/-! ### Edited class lists -/

namespace Rule

open Spinner

/-- The tokens a rule looks at: the marker, those it requires and those that write a size. -/
def Minds (r : Rule) (t : Text) : Prop :=
  t = marker ∨ t ∈ r.required ∨ ∃ kind ∈ sizeKinds, ∃ n, IsSize kind n t

instance (r : Rule) (t : Text) : Decidable (r.Minds t) :=
  decidable_of_iff (t = marker ∨ r.required.contains t = true ∨
      ∃ kind ∈ sizeKinds, (sizeOf? kind t).isSome = true) <| by
    simp only [Minds, List.contains_iff_mem, Option.isSome_iff_exists, sizeOf?_eq_some_iff]

/-- One change of a class list that a rule should not mind. -/
inductive Edit (r : Rule) : List Text → List Text → Prop where
  | permute {xs ys : List Text} : xs.Perm ys → Edit r xs ys
  | insert (before after : List Text) {t : Text} : ¬ r.Minds t → Edit r (before ++ after) (before ++ t :: after)
  | delete (before after : List Text) {t : Text} : ¬ r.Minds t → Edit r (before ++ t :: after) (before ++ after)

/-- Class lists that hold the same of the tokens a rule looks at. -/
def Alike (r : Rule) (xs ys : List Text) : Prop := ∀ t, r.Minds t → (t ∈ xs ↔ t ∈ ys)

variable {r : Rule} {xs ys : List Text}

theorem alike_insert (before after : List Text) {t : Text} (h : ¬ r.Minds t) :
    r.Alike (before ++ after) (before ++ t :: after) := by
  intro u hu
  have hne : u ≠ t := fun heq => h (heq ▸ hu)
  simp [hne]

theorem Edit.alike (h : r.Edit xs ys) : r.Alike xs ys := by
  cases h with
  | permute hperm => exact fun _ _ => hperm.mem_iff
  | insert before after ht => exact alike_insert before after ht
  | delete before after ht => exact fun u hu => (alike_insert before after ht u hu).symm

/-- Any number of edits leaves the tokens that a rule looks at. -/
theorem alike_of_edits (h : Relation.ReflTransGen r.Edit xs ys) : r.Alike xs ys := by
  induction h with
  | refl => exact fun _ _ => Iff.rfl
  | tail _ hedit ih => exact fun t ht => (ih t ht).trans (hedit.alike t ht)

theorem accepts_eq_of_alike (hone : OneSizeEach xs) (h : r.Alike xs ys) : r.accepts xs = r.accepts ys := by
  have hmarker : xs.elem marker = ys.elem marker := by
    rw [Bool.eq_iff_iff, List.elem_iff, List.elem_iff]
    exact h marker (.inl rfl)
  have hrequired : r.required.all xs.elem = r.required.all ys.elem := by
    rw [Bool.eq_iff_iff, List.all_eq_true, List.all_eq_true]
    refine forall₂_congr fun t ht => ?_
    rw [List.elem_iff, List.elem_iff]
    exact h t (.inr (.inl ht))
  have hsize : size? xs = size? ys :=
    size?_congr hone fun kind hkind t n hn => h t (.inr (.inr ⟨kind, hkind, n, hn⟩))
  rw [accepts, accepts, hmarker, hrequired, hsize]

/-- **A rule's answer does not depend on the order of the tokens, nor on tokens it does not mind**, once every
kind of size tokens writes one size. -/
theorem accepts_edited (hone : OneSizeEach xs) (h : Relation.ReflTransGen r.Edit xs ys) :
    r.accepts xs = r.accepts ys :=
  accepts_eq_of_alike hone (alike_of_edits h)

/-- The class list of a spinner: its height is written twice, once with a sign and a leading zero. -/
def sizedTokens : List Text :=
  ["mx-auto".toList, "h-10".toList, "animate-spin".toList, "h-+010".toList, "rounded-full".toList,
    "w-6".toList]

/-- The same list without `mx-auto`, in another order and with a height for wide screens only. -/
def reorderedTokens : List Text :=
  ["md:h-4".toList, "h-+010".toList, "rounded-full".toList, "w-6".toList, "animate-spin".toList,
    "h-10".toList]

/-- The first of the standard rules, which asks for a shape and a size. -/
def roundRule : Rule :=
  ⟨"large-centered".toList, .large, .oneOf [8, 10, 12, 14, 16], ["rounded-full".toList], ⟨.centered, some .lg⟩⟩

theorem sizedTokens_reordered :
    OneSizeEach sizedTokens ∧ Relation.ReflTransGen roundRule.Edit sizedTokens reorderedTokens ∧
      roundRule.accepts sizedTokens = roundRule.accepts reorderedTokens := by
  have hone : OneSizeEach sizedTokens := by decide +kernel
  have hdelete : roundRule.Edit sizedTokens (sizedTokens.drop 1) :=
    .delete [] (sizedTokens.drop 1) (by decide +kernel)
  have hpermute : roundRule.Edit (sizedTokens.drop 1) (reorderedTokens.drop 1) :=
    .permute (by decide +kernel)
  have hinsert : roundRule.Edit (reorderedTokens.drop 1) reorderedTokens :=
    .insert [] (reorderedTokens.drop 1) (by decide +kernel)
  have hedits : Relation.ReflTransGen roundRule.Edit sizedTokens reorderedTokens :=
    .tail (.tail (.single hdelete) hpermute) hinsert
  exact ⟨hone, hedits, accepts_edited hone hedits⟩

/-- Of two heights the first counts, so their order does matter. -/
example : roundRule.accepts ["animate-spin".toList, "rounded-full".toList, "h-10".toList, "h-4".toList] = true ∧
    roundRule.accepts ["animate-spin".toList, "rounded-full".toList, "h-4".toList, "h-10".toList] = false := by
  decide +kernel

end Rule
end SpinnerMarkup
