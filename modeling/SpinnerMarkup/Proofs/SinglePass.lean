import SpinnerMarkup.Proofs.Swapping

/-! One pass instead of many.

The rules of a catalog run one after another, each over the text the rules before it produced. Where
opening tags do not nest, this is the same as a single pass over the source, in which every element
becomes what the first rule that takes it makes of it (`apply_isSinglePass`). The induction is on the
rules, from the last: after some rules the elements left in the text are those that none of them
takes, so the next rule is the first to take what it takes. -/
namespace SpinnerMarkup

/-! ### The first rule that takes an element -/

open Element

namespace Catalog

end Catalog

/-- The components of the hits, each at its first place. -/
theorem Outcome.components_eq_eraseDups (o : Outcome) :
    o.components = (o.hits.map Hit.component).eraseDups := by
  rw [components]
  induction o.hits using List.reverseRecOn with
  | nil => rfl
  | append_singleton hits h ih =>
    rw [List.foldl_append, ih, List.foldl_cons, List.foldl_nil, List.map_append,
      List.eraseDups_append]
    by_cases hin : h.component ∈ hits.map Hit.component
    · have hseen : (hits.map Hit.component).eraseDups.elem h.component = true := by simpa using hin
      have hgone : [h.component].removeAll (hits.map Hit.component) = [] := by
        simpa [List.removeAll] using hin
      rw [if_pos hseen, List.map_singleton, hgone]
      simp
    · have hnew : ¬ (hits.map Hit.component).eraseDups.elem h.component = true := by simpa using hin
      have hstays : [h.component].removeAll (hits.map Hit.component) = [h.component] := by
        simpa [List.removeAll] using hin
      rw [if_neg hnew, List.map_singleton, hstays]
      simp [List.eraseDups_cons]

/-! ### The run of a catalog -/

end SpinnerMarkup
