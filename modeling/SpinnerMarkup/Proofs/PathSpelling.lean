import Mathlib.Logic.Relation
import SpinnerMarkup.Proofs.PathParts

/-! Spellings of one path.

Two paths are the same when their parts are, and the parts are read from the pieces between slashes. What
that comes to for the texts is said here without parts: a text may lose a slash next to another, a dot
between slashes or after the last one, and a slash at its end (`Collapse`). Nothing else may change: a
leading dot and double dots stay. No such step changes the parts (`Collapse.parts_eq`), and every text can
be brought to the plain spelling of its parts (`collapses_plain`). So two paths have the same parts exactly
when their texts collapse to one (`parts_eq_iff_respelled`). -/
namespace SpinnerMarkup.Path

open Text Relation

/-! ### Collapsing -/

/-- One step that leaves out what a path need not say. -/
inductive Collapse : Text → Text → Prop where
  /-- A slash next to another. -/
  | slash (a b : Text) : Collapse (a ++ '/' :: '/' :: b) (a ++ '/' :: b)
  /-- A dot between slashes, with one of them. -/
  | dot (a b : Text) : Collapse (a ++ '/' :: '.' :: '/' :: b) (a ++ '/' :: b)
  /-- A dot after the last slash. -/
  | lastDot (a : Text) : Collapse (a ++ ['/', '.']) (a ++ ['/'])
  /-- A slash at the end, unless it is all there is. -/
  | lastSlash {a : Text} : a ≠ [] → Collapse (a ++ ['/']) a

/-- Two spellings of one path: leaving out what they need not say makes them the same text. -/
def Respelled (p q : Path) : Prop := Join (ReflTransGen Collapse) p.text q.text

theorem Collapse.parts_eq {s t : Text} (h : Collapse s t) : (Path.mk s).parts = (Path.mk t).parts := by
  cases h with
  | slash a b =>
    rw [parts_append_slash a ('/' :: b), parts_append_slash a b, split, if_pos rfl,
      bodyParts_cons_of_empty rfl]
  | dot a b =>
    have hsplit : split '/' ('.' :: '/' :: b) = ['.'] :: split '/' b := split_append '/' ['.'] b
    rw [parts_append_slash a ('.' :: '/' :: b), parts_append_slash a b, hsplit, bodyParts_cons_of_empty rfl]
  | lastDot a =>
    rw [parts_append_slash a ['.'], parts_append_slash a []]
    rfl
  | lastSlash ha =>
    rw [parts_append_slash t [], lead_append_slash ha, Path.parts_eq, List.append_assoc]
    exact congrArg _ (List.append_nil _)

theorem parts_eq_of_collapses {s t : Text} (h : ReflTransGen Collapse s t) :
    (Path.mk s).parts = (Path.mk t).parts := by
  induction h with
  | refl => rfl
  | tail _ hstep ih => exact ih.trans hstep.parts_eq

/-! ### The plain spelling -/

/-- What stands between the slashes for a part. -/
def Part.label : Part → Text
  | .root => []
  | .current => ['.']
  | .parent => ['.', '.']
  | .name n => n

/-- The spelling of parts that says nothing twice. -/
def plain (parts : List Part) : Text := (ofPieces (parts.map Part.label)).text

theorem label_partOf (piece : Text) : (partOf piece).label = piece := by
  unfold partOf
  split
  · next h => rw [h]; rfl
  · rfl

theorem labels_bodyParts (pieces : List Text) :
    (bodyParts pieces).map Part.label = pieces.filter fun piece => !isEmptyPiece piece := by
  rw [bodyParts, List.map_map]
  exact List.map_id'' label_partOf _

/-- The pieces that parts are read from, without those that say nothing. -/
theorem labels_parts {p : Path} {first : Text} {rest : List Text} (hp : p.text ≠ [])
    (hpieces : p.pieces = first :: rest) :
    p.parts.map Part.label = first :: rest.filter fun piece => !isEmptyPiece piece := by
  rw [parts, hpieces]
  dsimp only
  by_cases habs : p.isAbsolute = true
  · have hempty := pieces_of_isAbsolute habs
    rw [hpieces] at hempty
    obtain rfl : first = [] := (List.cons.inj hempty).1
    rw [if_pos habs, List.map_cons, labels_bodyParts]
    rfl
  rw [if_neg habs]
  by_cases hdot : first = ['.']
  · subst hdot
    rw [if_pos rfl, List.map_cons, labels_bodyParts]
    rfl
  -- a text that begins with no piece is empty or absolute
  have hfirst : first ≠ [] := by
    rintro rfl
    have htext : p.text = Text.join ['/'] ([] :: rest) := by rw [← hpieces, pieces, join_split]
    cases rest with
    | nil => exact hp htext
    | cons next rest => exact habs (isAbsolute_iff.2 ⟨_, htext⟩)
  have hkept : isEmptyPiece first = false := by simp [isEmptyPiece, hfirst, hdot]
  rw [if_neg hdot, labels_bodyParts, List.filter_cons_of_pos (by simp [hkept])]

theorem ofPieces_singleton {first : Text} (h : first ≠ []) : (ofPieces [first]).text = first := by
  obtain ⟨c, s, rfl⟩ := List.exists_cons_of_ne_nil h
  rfl

theorem ofPieces_cons_cons (first second : Text) (rest : List Text) :
    (ofPieces (first :: second :: rest)).text = first ++ '/' :: Text.join ['/'] (second :: rest) := by
  simp [ofPieces, join_cons_cons]

/-- The pieces behind a slash lose those that say nothing. The induction runs over the pieces, and what stands
before them grows. -/
theorem collapses_body (a : Text) {pieces : List Text} (h : pieces ≠ []) :
    ReflTransGen Collapse (a ++ '/' :: Text.join ['/'] pieces)
      (a ++ '/' :: Text.join ['/'] (pieces.filter fun piece => !isEmptyPiece piece)) := by
  induction pieces generalizing a with
  | nil => exact absurd rfl h
  | cons piece pieces ih =>
    by_cases hempty : isEmptyPiece piece = true
    · rw [List.filter_cons_of_neg (by simp [hempty])]
      rw [isEmptyPiece, Bool.or_eq_true, List.isEmpty_iff, beq_iff_eq] at hempty
      cases pieces with
      | nil =>
        rcases hempty with rfl | rfl
        · exact .refl
        · exact .single (.lastDot a)
      | cons next pieces =>
        have hrest := ih a (List.cons_ne_nil next pieces)
        rcases hempty with rfl | rfl
        · exact .head (.slash a _) hrest
        · exact .head (.dot a _) hrest
    · rw [List.filter_cons_of_pos (by simp [hempty])]
      cases pieces with
      | nil => exact .refl
      | cons next pieces =>
        have hbehind := ih (a ++ '/' :: piece) (List.cons_ne_nil next pieces)
        rw [join_cons_cons]
        cases hkept : (next :: pieces).filter fun piece => !isEmptyPiece piece with
        | nil =>
          rw [hkept] at hbehind
          have hlast : Collapse (a ++ '/' :: piece ++ ['/']) (a ++ '/' :: piece) := .lastSlash (by simp)
          simpa [Text.join] using hbehind.tail hlast
        | cons kept keeps =>
          rw [hkept] at hbehind
          simpa [join_cons_cons] using hbehind

/-- **Every path can be brought to the plain spelling of its parts.** -/
theorem collapses_plain (p : Path) : ReflTransGen Collapse p.text (plain p.parts) := by
  by_cases hp : p.text = []
  · rw [parts_of_text_eq_nil hp, hp]
    exact .refl
  obtain ⟨first, rest, hpieces⟩ : ∃ first rest, p.pieces = first :: rest :=
    List.exists_cons_of_ne_nil (split_ne_nil '/' p.text)
  have htext : p.text = Text.join ['/'] (first :: rest) := by rw [← hpieces, pieces, join_split]
  rw [plain, labels_parts hp hpieces, htext]
  cases rest with
  | nil =>
    have hfirst : first ≠ [] := fun hnil => hp (by rw [htext, hnil]; rfl)
    rw [List.filter_nil, ofPieces_singleton hfirst]
    exact .refl
  | cons next rest =>
    have hbody := collapses_body first (List.cons_ne_nil next rest)
    rw [join_cons_cons, List.append_assoc, List.singleton_append]
    cases hkept : (next :: rest).filter fun piece => !isEmptyPiece piece with
    | nil =>
      rw [hkept] at hbody
      by_cases hfirst : first = []
      · subst hfirst
        exact hbody
      · rw [ofPieces_singleton hfirst]
        exact hbody.tail (.lastSlash hfirst)
    | cons kept keeps =>
      rw [hkept] at hbody
      rw [ofPieces_cons_cons]
      exact hbody

/-- **Two paths have the same parts exactly when their texts collapse to one.** -/
theorem parts_eq_iff_respelled {p q : Path} : p.parts = q.parts ↔ Respelled p q := by
  constructor
  · intro h
    have hp := collapses_plain p
    rw [h] at hp
    exact ⟨plain q.parts, hp, collapses_plain q⟩
  · intro h
    obtain ⟨t, hp, hq⟩ := h
    exact (parts_eq_of_collapses hp).trans (parts_eq_of_collapses hq).symm

end SpinnerMarkup.Path
