import Mathlib.Data.List.Forall2
import SpinnerMarkup.Report
import SpinnerMarkup.Proofs.JsonReading

/-! What the JSON of a report tells.

A reader of JSON finds one object in the text, and in it a list with an object for each file, in the order of
the report (`Tells`). Such an object is flat: beside the path stand a word for what happened and the details
of that (`Describes`). Since an object describes one result only, a text tells of one report only
(`Tells.unique`), so the texts of two reports differ. -/
namespace SpinnerMarkup

/-- An object that tells what happened to a file: the path as it was given, a word and the details. -/
inductive Describes : FileResult → Json → Prop where
  | changed {path : Path} {n : Nat} {importAdded : Bool} :
      Describes ⟨path, .changed n importAdded⟩ (.obj
        [("path".toList, .str path.text), ("status".toList, .str "changed".toList),
          ("replacements".toList, .num n), ("import_added".toList, .bool importAdded)])
  | skipped {path : Path} :
      Describes ⟨path, .skipped⟩ (.obj
        [("path".toList, .str path.text), ("status".toList, .str "skipped".toList)])
  | failed {path : Path} {error : Text} :
      Describes ⟨path, .failed error⟩ (.obj
        [("path".toList, .str path.text), ("status".toList, .str "failed".toList),
          ("error".toList, .str error)])

theorem describes_iff {r : FileResult} {j : Json} : Describes r j ↔ j = r.toJson := by
  constructor
  · intro h
    cases h <;> rfl
  · rintro rfl
    obtain ⟨path, status⟩ := r
    cases status with
    | changed => exact .changed
    | skipped => exact .skipped
    | failed => exact .failed

/-- The word tells which details follow, and the details are the fields of the status. -/
theorem statusFields_injective : Function.Injective FileResult.statusFields := by
  intro status status' h
  cases status <;> cases status' <;> simp_all [FileResult.statusFields]

theorem toJson_injective : Function.Injective FileResult.toJson := by
  rintro ⟨⟨path⟩, status⟩ ⟨⟨path'⟩, status'⟩ h
  simp only [FileResult.toJson, Json.obj.injEq, List.cons.injEq, Prod.mk.injEq, Json.str.injEq, true_and] at h
  rw [h.1, statusFields_injective h.2]

/-- An object describes one result only. -/
theorem describes_leftUnique : Relator.LeftUnique Describes := fun _ _ _ h h' =>
  toJson_injective ((describes_iff.1 h).symm.trans (describes_iff.1 h'))

namespace Report

/-- A reader of JSON finds in the text what happened to each file, in order, and nothing else. -/
def Tells (s : Text) (r : Report) : Prop :=
  ∃ entries, Json.read? s = some (.obj [("results".toList, .arr entries)]) ∧
    List.Forall₂ Describes r.results entries

theorem tells_renderJson (r : Report) : Tells r.renderJson r :=
  ⟨r.results.map FileResult.toJson, Json.read?_render r.toJson,
    List.forall₂_map_right_iff.2 (List.forall₂_same.2 fun _ _ => describes_iff.2 rfl)⟩

/-- A text tells of one report only. -/
theorem Tells.unique {s : Text} {r r' : Report} (h : Tells s r) (h' : Tells s r') : r = r' := by
  obtain ⟨results⟩ := r
  obtain ⟨results'⟩ := r'
  obtain ⟨entries, hread, hentries⟩ := h
  obtain ⟨entries', hread', hentries'⟩ := h'
  obtain rfl : entries = entries' := by simpa [hread] using hread'
  exact congrArg Report.mk (List.left_unique_forall₂' describes_leftUnique hentries hentries')

/-- **The JSON of a report loses nothing.** Every report has a text: a reader of JSON finds in it an object
for each file, in order, with the path, the word and the details of that file, whatever characters the path
and the error hold. No other report has the same text. -/
theorem renderJson_tells (r : Report) :
    Tells r.renderJson r ∧ ∀ r' : Report, r'.renderJson = r.renderJson → r' = r := by
  refine ⟨tells_renderJson r, fun r' hsame => ?_⟩
  have htold := tells_renderJson r'
  rw [hsame] at htold
  exact htold.unique (tells_renderJson r)

end Report
end SpinnerMarkup
