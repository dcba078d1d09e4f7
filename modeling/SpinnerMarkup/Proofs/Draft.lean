import Mathlib.Data.List.Induction
import SpinnerMarkup.Proofs.Pass

/-! Drafts: a text under revision, told apart into what stands as it stood in the source and the
invocations put in since.

A draft keeps, beside each invocation, the part of the source it stands for. Its segments fall into
*groups* along the scan of its text: a group is one segment outside every element, or the segments
an element lies over. `groups_aligned` says that this is always possible: an element never lies over
a part of an invocation, so the invocation is inside the element whole or outside it whole. A rule
revises a draft group by group, and `text_revise` says that the text of the revised draft is the
text after the rule's pass. -/
namespace SpinnerMarkup

/-! ### What an invocation looks like -/

/-- An invocation opens and closes one tag, and the tag is no `<div>`. -/
theorem Invocation.render_shape (i : Invocation) :
    ∃ w, i.render = '<' :: 'L' :: (w ++ ['>']) ∧ '<' ∉ w ∧ '>' ∉ w := by
  refine ⟨(i.render.drop 2).dropLast, ?_⟩
  rcases i with ⟨_ | _, _ | _ | _⟩ <;> decide

/-- No element begins inside an invocation. -/
theorem Invocation.scan_render (i : Invocation) (s : Text) :
    Element.pattern.scan (i.render ++ s) = i.render.map .plain ++ Element.pattern.scan s := by
  obtain ⟨w, hw, hlt, -⟩ := i.render_shape
  apply Element.scan_plains
  intro v c u h
  rw [hw] at h
  cases v with
  | nil =>
    obtain ⟨rfl, rfl⟩ : '<' = c ∧ 'L' :: (w ++ ['>']) = u := by simpa using h
    simp [Element.read?, Element.opening, Text.after?]
  | cons d v =>
    obtain ⟨-, h⟩ : '<' = d ∧ 'L' :: (w ++ ['>']) = v ++ c :: u := by simpa using h
    apply Element.read?_eq_none_of_head
    rintro rfl
    have hmem : '<' ∈ 'L' :: (w ++ ['>']) := by rw [h]; simp
    simp [hlt] at hmem

/-! ### Segments and drafts -/

/-- A part of a text under revision. -/
inductive Segment where
  /-- A character that stands as it stood in the source. -/
  | kept (c : Char)
  /-- An invocation put in by a rule, and the part of the source it stands for. -/
  | swapped (old : Text) (rule : Rule)
  deriving Repr, DecidableEq

namespace Segment

/-- The part of the source a segment stands for. -/
def source : Segment → Text
  | kept c => [c]
  | swapped old _ => old

/-- The text of a segment. -/
def text : Segment → Text
  | kept c => [c]
  | swapped _ r => r.replacement.render

def isSwapped : Segment → Bool
  | kept _ => false
  | swapped _ _ => true

/-- A segment holds no closing mark before its last character. -/
theorem text_shape (g : Segment) : ∃ v x, g.text = v ++ [x] ∧ '>' ∉ v := by
  cases g with
  | kept c => exact ⟨[], c, rfl, by simp⟩
  | swapped old r =>
    obtain ⟨w, hw, -, hgt⟩ := r.replacement.render_shape
    exact ⟨'<' :: 'L' :: w, '>', hw, by simp [hgt]⟩

theorem length_text_pos (g : Segment) : 0 < g.text.length := by
  obtain ⟨v, x, h, -⟩ := g.text_shape
  simp [h]

end Segment

/-- A text under revision. -/
abbrev Draft := List Segment

namespace Draft

/-- The source of a draft. -/
def source (d : Draft) : Text := d.flatMap Segment.source

/-- The text of a draft. -/
def text (d : Draft) : Text := d.flatMap Segment.text

/-- The draft of a source nobody has touched. -/
def ofSource (s : Text) : Draft := s.map .kept

@[simp] theorem source_nil : source [] = [] := rfl
@[simp] theorem text_nil : text [] = [] := rfl

@[simp] theorem source_cons (g : Segment) (d : Draft) : source (g :: d) = g.source ++ source d := rfl
@[simp] theorem text_cons (g : Segment) (d : Draft) : text (g :: d) = g.text ++ text d := rfl

@[simp] theorem source_append (d d' : Draft) : source (d ++ d') = source d ++ source d' :=
  List.flatMap_append
@[simp] theorem text_append (d d' : Draft) : text (d ++ d') = text d ++ text d' :=
  List.flatMap_append

theorem source_ofSource (s : Text) : source (ofSource s) = s := by
  induction s with
  | nil => rfl
  | cons c s ih => exact congrArg (c :: ·) ih

theorem text_ofSource (s : Text) : text (ofSource s) = s := by
  induction s with
  | nil => rfl
  | cons c s ih => exact congrArg (c :: ·) ih

/-- **A text that ends with a closing mark and begins a draft is made of whole segments.** -/
theorem exists_split {d : Draft} {w z : Text} (h : d.text = w ++ z) (hw : w.getLast? = some '>') :
    ∃ g y : Draft, d = g ++ y ∧ g.text = w ∧ y.text = z := by
  induction d generalizing w with
  | nil =>
    obtain ⟨rfl, -⟩ : w = [] ∧ z = [] := by simpa using h
    cases hw
  | cons g d ih =>
    rcases List.append_eq_append_iff.1 h with ⟨a, rfl, ha⟩ | ⟨b, hb, hz⟩
    · -- the first segment lies inside the text
      cases a with
      | nil => exact ⟨[g], d, rfl, by simp, ha⟩
      | cons x a =>
        have hlast : (x :: a).getLast? = some '>' := by simpa [List.getLast?_append] using hw
        obtain ⟨g', y, rfl, hg, hy⟩ := ih ha hlast
        exact ⟨g :: g', y, rfl, by simp [hg], hy⟩
    · -- the text ends inside the first segment, so it ends with it
      rcases List.eq_nil_or_concat b with rfl | ⟨b, y, rfl⟩
      · exact ⟨[g], d, rfl, by simpa using hb, hz.symm⟩
      · obtain ⟨v, x, hv, hgt⟩ := g.text_shape
        have hvx : v ++ [x] = w ++ b ++ [y] := by rw [← hv, hb, List.concat_eq_append, List.append_assoc]
        obtain ⟨rfl, -⟩ := List.append_inj' hvx rfl
        exact absurd (List.mem_append_left b (List.mem_of_getLast? hw)) hgt

/-! ### Groups -/

/-- The segments that make up the first `n` characters of a draft's text. -/
def front : Nat → Draft → Draft
  | 0, _ => []
  | _ + 1, [] => []
  | n + 1, g :: d => g :: front (n + 1 - g.text.length) d

theorem front_append (g d : Draft) : front g.text.length (g ++ d) = g := by
  induction g with
  | nil => cases d <;> rfl
  | cons x g ih =>
    obtain ⟨n, hn⟩ : ∃ n, x.text.length + (text g).length = n + 1 :=
      Nat.exists_eq_add_one.2 (Nat.add_pos_left x.length_text_pos _)
    have hrest : n + 1 - x.text.length = (text g).length := by omega
    rw [text_cons, List.length_append, hn, List.cons_append, front, hrest, ih]

end Draft

/-- Segments of a draft that a scan of its text does not separate: those an element lies over, or
one outside every element. -/
structure Group where
  element : Option Element
  segments : Draft

namespace Group

/-- The pieces of a scan that a group accounts for. -/
def pieces (g : Group) : List (Piece Element) :=
  match g.element with
  | some e => [.found e]
  | none => g.segments.text.map .plain

end Group

namespace Draft

/-- The groups of a draft whose first `skip` characters belong to a group already formed. -/
def groupsFrom : Nat → Draft → List Group
  | _, [] => []
  | skip + 1, g :: d => groupsFrom (skip + 1 - g.text.length) d
  | 0, g :: d =>
    match Element.read? (text (g :: d)) with
    | none => ⟨none, [g]⟩ :: groupsFrom 0 d
    | some e =>
      ⟨some e, front e.source.length (g :: d)⟩ :: groupsFrom (e.source.length - g.text.length) d

/-- The groups of a draft, along the scan of its text. -/
def groups (d : Draft) : List Group := groupsFrom 0 d

theorem groupsFrom_append (g d : Draft) : groupsFrom g.text.length (g ++ d) = groups d := by
  induction g with
  | nil => rfl
  | cons x g ih =>
    obtain ⟨n, hn⟩ : ∃ n, x.text.length + (text g).length = n + 1 :=
      Nat.exists_eq_add_one.2 (Nat.add_pos_left x.length_text_pos _)
    have hrest : n + 1 - x.text.length = (text g).length := by omega
    rw [text_cons, List.length_append, hn, List.cons_append, groupsFrom, hrest, ih]

theorem groups_plain {g : Segment} {d : Draft} (h : Element.read? (text (g :: d)) = none) :
    groups (g :: d) = ⟨none, [g]⟩ :: groups d := by
  rw [groups, groupsFrom, h]
  rfl

theorem groups_element {e : Element} {g d : Draft} (hg : g.text = e.source)
    (h : Element.read? (e.source ++ d.text) = some e) :
    groups (g ++ d) = ⟨some e, g⟩ :: groups d := by
  cases g with
  | nil => exact absurd hg.symm (Element.source_ne_nil e)
  | cons x g =>
    have hr : Element.read? (text (x :: (g ++ d))) = some e := by
      rw [← List.cons_append, text_append, hg]
      exact h
    have hfront : front e.source.length (x :: (g ++ d)) = x :: g := by
      rw [← hg]
      exact front_append (x :: g) d
    have hskip : e.source.length - x.text.length = (text g).length := by
      rw [← hg, text_cons, List.length_append, Nat.add_sub_cancel_left]
    rw [List.cons_append, groups, groupsFrom, hr]
    dsimp only
    rw [hfront, hskip, groupsFrom_append]

/-- Induction along the scan of a draft's text. -/
@[elab_as_elim]
theorem scanInduction {motive : Draft → Prop} (nil : motive [])
    (plain : ∀ (g : Segment) (d : Draft), Element.read? (text (g :: d)) = none → motive d →
      motive (g :: d))
    (element : ∀ (e : Element) (g d : Draft), g.text = e.source →
      Element.read? (e.source ++ d.text) = some e → motive d → motive (g ++ d))
    (d : Draft) : motive d := by
  -- an element at the front lies over whole segments, and fewer segments are left after it
  induction hn : d.length using Nat.strong_induction_on generalizing d with
  | _ n ih =>
    cases d with
    | nil => exact nil
    | cons g d =>
      cases hr : Element.read? (text (g :: d)) with
      | none => exact plain g d hr (ih d.length (by simp [← hn]) d rfl)
      | some e =>
        obtain ⟨r, hs⟩ := Element.read?_front hr
        obtain ⟨w, y, hd, hw, hy⟩ := exists_split hs (Element.getLast?_source hr)
        have hne : w ≠ [] := by
          rintro rfl
          exact Element.source_ne_nil e hw.symm
        have hlen := congrArg List.length hd
        have hpos := List.length_pos_iff.2 hne
        rw [List.length_append] at hlen
        rw [hd]
        refine element e w y hw ?_ (ih y.length (by omega) y rfl)
        rw [hy, ← hs]
        exact hr

/-- Where an element begins inside no segment, a segment is all plain. -/
theorem scan_text_plain {g : Segment} {d : Draft} (h : Element.read? (text (g :: d)) = none) :
    Element.pattern.scan (text (g :: d)) = g.text.map .plain ++ Element.pattern.scan d.text := by
  cases g with
  | kept c => exact Element.scan_plain h
  | swapped old r => exact r.replacement.scan_render d.text

/-- Groups that account for a draft and for the scan of its text. -/
structure Aligned (gs : List Group) (d : Draft) : Prop where
  /-- The groups make up the draft, in order. -/
  segments : gs.flatMap Group.segments = d
  /-- The groups make up the scan of the draft's text, in order. -/
  pieces : gs.flatMap Group.pieces = Element.pattern.scan d.text
  /-- An element lies over the whole of its segments and nothing else. -/
  whole : ∀ g ∈ gs, ∀ e, g.element = some e →
    g.segments.text = e.source ∧ Element.read? e.source = some e

/-- **An element of a draft's text lies over whole segments.** In particular it never lies over a
part of an invocation. -/
theorem groups_aligned (d : Draft) : Aligned d.groups d := by
  induction d using scanInduction with
  | nil => exact ⟨rfl, rfl, by simp [groups, groupsFrom]⟩
  | plain g d h ih =>
    rw [groups_plain h]
    refine ⟨by simp [ih.segments], ?_, ?_⟩
    · rw [List.flatMap_cons, ih.pieces, scan_text_plain h]
      simp [Group.pieces]
    · intro x hx e he
      rcases List.mem_cons.1 hx with rfl | hx
      · cases he
      · exact ih.whole x hx e he
  | element e g d hg h ih =>
    rw [groups_element hg h]
    refine ⟨by simp [ih.segments], ?_, ?_⟩
    · rw [List.flatMap_cons, ih.pieces, text_append, hg, Element.scan_found h]
      rfl
    · intro x hx f hf
      rcases List.mem_cons.1 hx with rfl | hx
      · obtain rfl := Option.some.inj hf
        exact ⟨hg, by simpa using Element.read?_source_append h []⟩
      · exact ih.whole x hx f hf

/-- The pieces of a whole group make up its text. -/
theorem Aligned.source_pieces {gs : List Group} {d : Draft} (h : Aligned gs d) {g : Group}
    (hg : g ∈ gs) : g.pieces.flatMap Element.pattern.pieceSource = g.segments.text := by
  unfold Group.pieces
  split
  · next e he =>
    rw [List.flatMap_singleton, (h.whole g hg e he).1]
    rfl
  · rw [List.flatMap_map]
    simp [Pattern.pieceSource]

/-- An element of a scan is the element of a group. -/
theorem exists_group_of_pieces {gs : List Group} {ps qs : List (Piece Element)} {e : Element}
    (h : gs.flatMap Group.pieces = ps ++ .found e :: qs) :
    ∃ gs₁ g gs₂, gs = gs₁ ++ g :: gs₂ ∧ g.element = some e ∧ gs₁.flatMap Group.pieces = ps := by
  induction gs generalizing ps with
  | nil => simp at h
  | cons g gs ih =>
    rw [List.flatMap_cons] at h
    rcases List.append_eq_append_iff.1 h with ⟨ps', rfl, hps⟩ | ⟨qs', hg, hqs⟩
    · obtain ⟨gs₁, g', gs₂, rfl, he, rfl⟩ := ih hps
      exact ⟨g :: gs₁, g', gs₂, rfl, he, rfl⟩
    · cases qs' with
      | nil =>
        obtain ⟨gs₁, g', gs₂, rfl, he, hnil⟩ := @ih [] hqs.symm
        exact ⟨g :: gs₁, g', gs₂, rfl, he, by rw [List.flatMap_cons, hnil, hg]; simp⟩
      | cons p qs' =>
        obtain ⟨rfl, -⟩ : .found e = p ∧ qs = qs' ++ gs.flatMap Group.pieces := by simpa using hqs
        unfold Group.pieces at hg
        split at hg
        · next f hf =>
          obtain ⟨rfl, hef⟩ : ps = [] ∧ .found f = Piece.found e ∧ qs' = [] := by
            cases ps with
            | nil => simpa using hg
            | cons p ps => simp at hg
          obtain rfl : f = e := by simpa using hef.1
          exact ⟨[], g, gs, rfl, hf, rfl⟩
        · have hmem : Piece.found e ∈ g.segments.text.map Piece.plain := by rw [hg]; simp
          simp at hmem

/-- **Every element of a draft's scan is made of whole segments**, and so is what stands before
it. -/
theorem exists_segments {d : Draft} {ps qs : List (Piece Element)} {e : Element}
    (h : Element.pattern.scan d.text = ps ++ .found e :: qs) :
    ∃ x g y : Draft, d = x ++ g ++ y ∧ x.text = ps.flatMap Element.pattern.pieceSource ∧
      g.text = e.source := by
  have ha := d.groups_aligned
  rw [← ha.pieces] at h
  obtain ⟨gs₁, g, gs₂, hgs, he, hps⟩ := exists_group_of_pieces h
  have hmem : ∀ x ∈ gs₁, x ∈ d.groups := fun x hx => by rw [hgs]; simp [hx]
  refine ⟨gs₁.flatMap Group.segments, g.segments, gs₂.flatMap Group.segments, ?_, ?_, ?_⟩
  · rw [← ha.segments, hgs]
    simp
  · rw [← hps, List.flatMap_assoc, text, List.flatMap_assoc]
    exact List.flatMap_congr fun x hx => (ha.source_pieces (hmem x hx)).symm
  · exact (ha.whole g (by rw [hgs]; simp) e he).1

end Draft

/-! ### Revising a draft -/

namespace Rule

/-- What a rule makes of a group: an invocation if it takes the element, else what it was. -/
def revised (r : Rule) (g : Group) : Draft :=
  match g.element with
  | some e => if r.replaces e then [.swapped g.segments.source r] else g.segments
  | none => g.segments

/-- The draft after a rule's pass. -/
def revise (r : Rule) (d : Draft) : Draft := d.groups.flatMap r.revised

/-- Whether a rule takes the element of a group. -/
def takesGroup (r : Rule) (g : Group) : Bool := g.element.any r.replaces

theorem revised_of_takes {r : Rule} {g : Group} (h : r.takesGroup g = true) :
    r.revised g = [.swapped g.segments.source r] := by
  obtain ⟨e, he, hr⟩ := (Option.any_eq_true _ _).1 h
  simp [revised, he, hr]

theorem revised_of_not_takes {r : Rule} {g : Group} (h : r.takesGroup g = false) :
    r.revised g = g.segments := by
  unfold revised
  split
  · next e he =>
    have hr : r.replaces e = false := by simpa [takesGroup, he] using h
    simp [hr]
  · rfl

theorem source_revised (r : Rule) (g : Group) : (r.revised g).source = g.segments.source := by
  cases h : r.takesGroup g with
  | true => simp [revised_of_takes h, Segment.source]
  | false => rw [revised_of_not_takes h]

/-- A group with a whole element is rendered as a pass renders its pieces. -/
theorem text_revised {r : Rule} {g : Group}
    (hw : ∀ e, g.element = some e → g.segments.text = e.source) :
    (r.revised g).text = g.pieces.flatMap r.rendered := by
  unfold revised Group.pieces
  split
  · next e he =>
    rw [List.flatMap_singleton, rendered_found]
    split
    · simp [Segment.text]
    · exact hw e he
  · rw [List.flatMap_map]
    simp [rendered_plain]

theorem countP_pieces (r : Rule) (g : Group) :
    g.pieces.countP r.takes = if r.takesGroup g then 1 else 0 := by
  unfold Group.pieces takesGroup
  split
  · next e he =>
    rw [he, List.countP_singleton]
    rfl
  · next he =>
    rw [he, List.countP_eq_zero.2 fun p hp => ?_]
    · rfl
    · obtain ⟨c, -, rfl⟩ := List.mem_map.1 hp
      simp [takes]

/-- **Revising changes nothing of the source.** -/
theorem source_revise (r : Rule) (d : Draft) : (r.revise d).source = d.source := by
  conv => rhs; rw [← d.groups_aligned.segments]
  simp only [revise, Draft.source, List.flatMap_assoc]
  exact List.flatMap_congr fun g _ => r.source_revised g

/-- **The text of the revised draft is the text after the rule's pass.** -/
theorem text_revise (r : Rule) (d : Draft) : (r.revise d).text = r.apply d.text := by
  have ha := d.groups_aligned
  simp only [revise, Draft.text, List.flatMap_assoc]
  rw [apply, ← Draft.text, ← ha.pieces, List.flatMap_assoc]
  exact List.flatMap_congr fun g hg => text_revised fun e he => (ha.whole g hg e he).1

/-- A rule takes as many elements as it swaps groups. -/
theorem count_text (r : Rule) (d : Draft) : r.count d.text = d.groups.countP r.takesGroup := by
  rw [count, ← d.groups_aligned.pieces]
  induction d.groups with
  | nil => rfl
  | cons g gs ih =>
    rw [List.flatMap_cons, List.countP_append, ih, countP_pieces, List.countP_cons, Nat.add_comm]

end Rule

/-- The draft after some rules have passed over a source in turn. -/
def draftAfter (rules : List Rule) (s : Text) : Draft :=
  rules.foldl (fun d r => r.revise d) (Draft.ofSource s)

theorem draftAfter_snoc (rules : List Rule) (r : Rule) (s : Text) :
    draftAfter (rules ++ [r]) s = r.revise (draftAfter rules s) := by
  simp [draftAfter]

theorem text_draftAfter (rules : List Rule) (s : Text) :
    (draftAfter rules s).text = textAfter rules s := by
  induction rules using List.reverseRecOn with
  | nil => exact Draft.text_ofSource s
  | append_singleton rules r ih => rw [draftAfter_snoc, Rule.text_revise, ih, textAfter_snoc]

end SpinnerMarkup
