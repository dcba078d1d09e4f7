import Mathlib.Data.List.DropRight
import SpinnerMarkup.Path

/-! The parts of joined paths, and paths told from a directory.

The parts of a path are its lead and its steps: the root or a leading dot, if there is one, and then
the names and double dots. Joining looks at the lead of the right path only to see whether that path
is absolute. If it is not, its steps follow the parts of the left path and its leading dot is lost
(`parts_join`). A path told from a directory leads back when it is joined to that directory
(`parts_join_from?`), and every relative path below a directory can be told from it
(`exists_from?`). -/
namespace SpinnerMarkup.Path

open Text

/-! ### Lead and steps -/

/-- What a path begins with, before its names and double dots. -/
def lead (p : Path) : List Part :=
  if p.isAbsolute then [.root] else if p.pieces.head? = some ['.'] then [.current] else []

/-- The names and double dots of a path. -/
def steps (p : Path) : List Part := bodyParts p.pieces

theorem bodyParts_append (pieces pieces' : List Text) :
    bodyParts (pieces ++ pieces') = bodyParts pieces ++ bodyParts pieces' := by
  simp [bodyParts]

theorem bodyParts_cons_of_empty {piece : Text} (h : isEmptyPiece piece = true) (pieces : List Text) :
    bodyParts (piece :: pieces) = bodyParts pieces := by
  simp [bodyParts, h]

theorem bodyParts_cons {piece : Text} (h : isEmptyPiece piece = false) (pieces : List Text) :
    bodyParts (piece :: pieces) = partOf piece :: bodyParts pieces := by
  simp [bodyParts, h]

theorem isAbsolute_iff {p : Path} : p.isAbsolute = true ↔ ∃ t, p.text = '/' :: t := by
  obtain ⟨text⟩ := p
  cases text with
  | nil => simp [isAbsolute]
  | cons c t => simp [isAbsolute]

/-- An absolute path has nothing before its first slash. -/
theorem pieces_of_isAbsolute {p : Path} (h : p.isAbsolute = true) :
    p.pieces = [] :: p.pieces.drop 1 := by
  obtain ⟨t, ht⟩ := isAbsolute_iff.1 h
  rw [pieces, ht, split, if_pos rfl]
  rfl

/-- **A path's parts are its lead and its steps.** -/
theorem parts_eq (p : Path) : p.parts = p.lead ++ p.steps := by
  obtain ⟨first, rest, hp⟩ := List.exists_cons_of_ne_nil (split_ne_nil '/' p.text)
  have hpieces : p.pieces = first :: rest := hp
  rw [parts, lead, steps, hpieces]
  dsimp only
  by_cases habs : p.isAbsolute = true
  · rw [if_pos habs, if_pos habs]
    have hfirst := pieces_of_isAbsolute habs
    rw [hpieces] at hfirst
    obtain rfl := (List.cons.inj hfirst).1
    rw [bodyParts_cons_of_empty rfl]
    rfl
  · rw [if_neg habs, if_neg habs]
    by_cases hdot : first = ['.']
    · subst hdot
      rw [if_pos rfl, bodyParts_cons_of_empty rfl]
      rfl
    · have hhead : (first :: rest).head? ≠ some ['.'] := by simpa using hdot
      rw [if_neg hdot, if_neg hhead, List.nil_append]

theorem mem_steps {p : Path} {part : Part} (h : part ∈ p.steps) : part ≠ .root ∧ part ≠ .current := by
  obtain ⟨piece, -, rfl⟩ := List.mem_map.1 h
  unfold partOf
  split <;> simp

theorem lead_cases (p : Path) :
    p.isAbsolute = true ∧ p.lead = [.root] ∨
      p.isAbsolute = false ∧ (p.lead = [.current] ∨ p.lead = []) := by
  unfold lead
  cases p.isAbsolute with
  | true => simp
  | false => by_cases h : p.pieces.head? = some ['.'] <;> simp [h]

theorem head?_parts_eq_root_iff {p : Path} : p.parts.head? = some .root ↔ p.isAbsolute = true := by
  rw [parts_eq]
  rcases p.lead_cases with ⟨habs, hlead⟩ | ⟨habs, hlead | hlead⟩
  · simp [habs, hlead]
  · simp [habs, hlead]
  · rw [habs, hlead, List.nil_append]
    refine iff_of_false (fun h => ?_) (by decide)
    exact (mem_steps (List.mem_of_mem_head? h)).1 rfl

theorem root_mem_parts_iff {p : Path} : .root ∈ p.parts ↔ p.isAbsolute = true := by
  refine ⟨fun h => ?_, fun h => List.mem_of_mem_head? (head?_parts_eq_root_iff.2 h)⟩
  rw [parts_eq, List.mem_append] at h
  rcases p.lead_cases with ⟨habs, -⟩ | ⟨-, hlead | hlead⟩
  · exact habs
  · exact absurd rfl (mem_steps (h.resolve_left (by simp [hlead]))).1
  · exact absurd rfl (mem_steps (h.resolve_left (by simp [hlead]))).1

/-- The steps are the parts that are neither the root nor a leading dot. -/
theorem steps_eq_filter (p : Path) :
    p.steps = p.parts.filter fun part => part ≠ .root ∧ part ≠ .current := by
  have hsteps : p.steps.filter (fun part => part ≠ .root ∧ part ≠ .current) = p.steps :=
    List.filter_eq_self.2 fun part h => decide_eq_true (mem_steps h)
  rw [parts_eq, List.filter_append, hsteps]
  rcases p.lead_cases with ⟨-, hlead⟩ | ⟨-, hlead | hlead⟩ <;> rw [hlead] <;> rfl

/-! ### Joined paths -/

theorem join_of_isAbsolute (p : Path) {q : Path} (h : q.isAbsolute = true) : p.join q = q := by
  rw [join, if_pos h]

theorem join_of_text_eq_nil {p : Path} (h : p.text = []) (q : Path) : p.join q = q := by
  unfold join
  split
  · rfl
  · rw [h]
    rfl

/-- A slash at the end of a path does not change what it begins with. -/
theorem lead_append_slash {t : Text} (h : t ≠ []) : (Path.mk (t ++ ['/'])).lead = (Path.mk t).lead := by
  obtain ⟨c, s, rfl⟩ := List.exists_cons_of_ne_nil h
  obtain ⟨first, rest, hsplit⟩ := List.exists_cons_of_ne_nil (split_ne_nil '/' (c :: s))
  have habs : (Path.mk (c :: s ++ ['/'])).isAbsolute = (Path.mk (c :: s)).isAbsolute := rfl
  rw [lead, lead, habs, pieces, pieces, split_append, hsplit]
  rfl

/-- The parts of a text with a slash in it. -/
theorem parts_append_slash (t s : Text) :
    (Path.mk (t ++ '/' :: s)).parts =
      (Path.mk (t ++ ['/'])).lead ++ bodyParts (split '/' t) ++ bodyParts (split '/' s) := by
  obtain ⟨first, rest, ht⟩ := List.exists_cons_of_ne_nil (split_ne_nil '/' t)
  have hlead : (Path.mk (t ++ '/' :: s)).lead = (Path.mk (t ++ ['/'])).lead := by
    have habs : (Path.mk (t ++ '/' :: s)).isAbsolute = (Path.mk (t ++ ['/'])).isAbsolute := by
      cases t <;> rfl
    rw [lead, lead, habs, pieces, pieces, split_append, split_append, ht]
    rfl
  have hsteps : (Path.mk (t ++ '/' :: s)).steps = bodyParts (split '/' t) ++ bodyParts (split '/' s) := by
    rw [steps, pieces, split_append, bodyParts_append]
  rw [parts_eq, hlead, hsteps, List.append_assoc]

/-- **The steps of a relative path follow the parts of the path it is joined to.** -/
theorem parts_join {p q : Path} (hp : p.text ≠ []) (hq : q.isAbsolute = false) :
    (p.join q).parts = p.parts ++ q.steps := by
  have hnot : ¬ q.isAbsolute = true := by simp [hq]
  -- the joined text is a front without its last slash, a slash, and the text of `q`
  obtain ⟨t, htext, hparts⟩ : ∃ t, p.join q = ⟨t ++ '/' :: q.text⟩ ∧
      p.parts = (Path.mk (t ++ ['/'])).lead ++ bodyParts (split '/' t) := by
    by_cases hslash : p.text.getLast?.all (· == '/') = true
    · obtain ⟨t, c, ht⟩ := (List.eq_nil_or_concat p.text).resolve_left hp
      rw [List.concat_eq_append] at ht
      obtain rfl : c = '/' := by simpa [ht] using hslash
      refine ⟨t, ?_, ?_⟩
      · rw [join, if_neg hnot, if_pos hslash, ht, List.append_assoc]
        rfl
      · have hmk : p = ⟨t ++ '/' :: []⟩ := congrArg Path.mk ht
        rw [hmk, parts_append_slash]
        simp [split, bodyParts, isEmptyPiece]
    · refine ⟨p.text, ?_, ?_⟩
      · rw [join, if_neg hnot, if_neg hslash]
      · rw [lead_append_slash hp, parts_eq]
        rfl
  rw [htext, parts_append_slash, hparts]
  rfl

/-- Joining gives the same for paths that are the same. -/
theorem parts_join_congr (p : Path) {q r : Path} (h : q.parts = r.parts) :
    (p.join q).parts = (p.join r).parts := by
  have habs : q.isAbsolute = r.isAbsolute := by
    rw [Bool.eq_iff_iff, ← root_mem_parts_iff, ← root_mem_parts_iff, h]
  by_cases hp : p.text = []
  · rw [join_of_text_eq_nil hp, join_of_text_eq_nil hp, h]
  · cases hq : q.isAbsolute with
    | true => rw [join_of_isAbsolute p hq, join_of_isAbsolute p (habs ▸ hq), h]
    | false =>
      rw [parts_join hp hq, parts_join hp (habs ▸ hq), steps_eq_filter, steps_eq_filter, h]

/-! ### Names below a path -/

/-- A name that an entry of a directory may have. -/
structure IsName (n : Text) : Prop where
  ne_nil : n ≠ []
  no_slash : '/' ∉ n
  ne_dot : n ≠ ['.']
  ne_dots : n ≠ ['.', '.']

instance (n : Text) : Decidable (IsName n) :=
  decidable_of_iff (n ≠ [] ∧ '/' ∉ n ∧ n ≠ ['.'] ∧ n ≠ ['.', '.'])
    ⟨fun h => ⟨h.1, h.2.1, h.2.2.1, h.2.2.2⟩, fun h => ⟨h.ne_nil, h.no_slash, h.ne_dot, h.ne_dots⟩⟩

theorem IsName.isAbsolute {n : Text} (h : IsName n) : (Path.mk n).isAbsolute = false := by
  cases habs : (Path.mk n).isAbsolute with
  | false => rfl
  | true =>
    obtain ⟨t, rfl⟩ := isAbsolute_iff.1 habs
    exact absurd (List.mem_cons_self ..) h.no_slash

theorem IsName.steps {n : Text} (h : IsName n) : (Path.mk n).steps = [.name n] := by
  have hpiece : isEmptyPiece n = false := by simp [isEmptyPiece, h.ne_nil, h.ne_dot]
  rw [Path.steps, pieces, split_of_not_mem h.no_slash, bodyParts_cons hpiece, partOf, if_neg h.ne_dots]
  rfl

theorem IsName.lead {n : Text} (h : IsName n) : (Path.mk n).lead = [] := by
  have hhead : (Path.mk n).pieces.head? ≠ some ['.'] := by
    rw [pieces, split_of_not_mem h.no_slash]
    simpa using h.ne_dot
  simp [Path.lead, h.isAbsolute, hhead]

theorem parts_of_text_eq_nil {p : Path} (h : p.text = []) : p.parts = [] := by
  obtain ⟨text⟩ := p
  obtain rfl : text = [] := h
  rfl

/-- **A name joined to a path is one more part.** -/
theorem IsName.parts_join {n : Text} (h : IsName n) (p : Path) :
    (p.join ⟨n⟩).parts = p.parts ++ [.name n] := by
  by_cases hp : p.text = []
  · rw [join_of_text_eq_nil hp, parts_of_text_eq_nil hp, parts_eq, h.lead, h.steps]
  · rw [Path.parts_join hp h.isAbsolute, h.steps]

/-! ### Paths told from a directory -/

theorem parts_eq_nil_iff {p : Path} : p.parts = [] ↔ p.text = [] := by
  refine ⟨fun h => ?_, parts_of_text_eq_nil⟩
  by_contra hp
  obtain ⟨c, s, hs⟩ := List.exists_cons_of_ne_nil hp
  rw [parts_eq, List.append_eq_nil_iff] at h
  rcases p.lead_cases with ⟨-, hlead⟩ | ⟨habs, hlead | -⟩
  · simp [hlead] at h
  · simp [hlead] at h
  · -- a path that is neither empty nor absolute has a first piece, which is no dot here
    have hc : c ≠ '/' := fun hc => by
      simp [isAbsolute, hs, hc] at habs
    obtain ⟨piece, rest, -, hpieces⟩ := split_cons_of_ne hc s
    have hsplit : p.pieces = (c :: piece) :: rest := by rw [pieces, hs, hpieces]
    have hdot : c :: piece ≠ ['.'] := fun hdot => by
      simp [lead, habs, hsplit, hdot] at h
    have hpiece : isEmptyPiece (c :: piece) = false := by simpa [isEmptyPiece] using hdot
    simp [steps, hsplit, bodyParts_cons hpiece] at h

theorem bodyParts_of_dropPart? {part : Part} {pieces left : List Text}
    (h : dropPart? part pieces = some left) :
    bodyParts pieces = part :: bodyParts left ∧ left ⊆ pieces := by
  induction pieces with
  | nil => cases h
  | cons piece pieces ih =>
    rw [dropPart?] at h
    cases hempty : isEmptyPiece piece with
    | true =>
      rw [hempty, if_pos rfl] at h
      rw [bodyParts_cons_of_empty hempty]
      exact ⟨(ih h).1, List.subset_cons_of_subset piece (ih h).2⟩
    | false =>
      rw [hempty, if_neg (by decide)] at h
      split at h
      · next hpart =>
        obtain rfl := Option.some.inj h
        rw [bodyParts_cons hempty, hpart]
        exact ⟨rfl, List.subset_cons_self ..⟩
      · cases h

theorem exists_dropPart? {part : Part} {parts : List Part} {pieces : List Text}
    (h : bodyParts pieces = part :: parts) :
    ∃ left, dropPart? part pieces = some left ∧ bodyParts left = parts := by
  induction pieces with
  | nil => cases h
  | cons piece pieces ih =>
    rw [dropPart?]
    cases hempty : isEmptyPiece piece with
    | true =>
      rw [bodyParts_cons_of_empty hempty] at h
      exact ih h
    | false =>
      rw [bodyParts_cons hempty] at h
      obtain ⟨rfl, rfl⟩ := List.cons.inj h
      exact ⟨pieces, by simp, rfl⟩

theorem bodyParts_of_dropParts? {parts : List Part} {pieces left : List Text}
    (h : dropParts? parts pieces = some left) :
    bodyParts pieces = parts ++ bodyParts left ∧ left ⊆ pieces := by
  induction parts generalizing pieces with
  | nil =>
    obtain rfl := Option.some.inj h
    exact ⟨rfl, List.Subset.refl _⟩
  | cons part parts ih =>
    obtain ⟨between, hpart, hparts⟩ := Option.bind_eq_some_iff.1 h
    obtain ⟨hbetween, hsub⟩ := bodyParts_of_dropPart? hpart
    obtain ⟨hleft, hsub'⟩ := ih hparts
    rw [hbetween, hleft]
    exact ⟨rfl, List.Subset.trans hsub' hsub⟩

theorem exists_dropParts? {parts parts' : List Part} {pieces : List Text}
    (h : bodyParts pieces = parts ++ parts') : ∃ left, dropParts? parts pieces = some left := by
  induction parts generalizing pieces with
  | nil => exact ⟨pieces, rfl⟩
  | cons part parts ih =>
    obtain ⟨between, hpart, hbetween⟩ := exists_dropPart? h
    obtain ⟨left, hleft⟩ := ih hbetween
    exact ⟨left, by rw [dropParts?, hpart, Option.bind_some, hleft]⟩

/-- The pieces that are left once the first part of a directory is taken off a path. -/
def dropFirst? (first : Part) (p : Path) : Option (List Text) :=
  match first with
  | .root => if p.isAbsolute then some (p.pieces.drop 1) else none
  | .current => if p.pieces.head? = some ['.'] then some (p.pieces.drop 1) else none
  | part => if p.isAbsolute || p.pieces.head? = some ['.'] then none else dropPart? part p.pieces

/-- Pieces without those at either end that say nothing. -/
def trim (pieces : List Text) : List Text :=
  ((pieces.dropWhile isEmptyPiece).reverse.dropWhile isEmptyPiece).reverse

theorem from?_of_parts {p base : Path} {first : Part} {rest : List Part} (h : base.parts = first :: rest) :
    p.from? base = ((dropFirst? first p).bind (dropParts? rest)).map fun pieces =>
      ⟨Text.join ['/'] (trim pieces)⟩ := by
  rw [from?, h]
  cases first <;> rfl

theorem bodyParts_dropWhile (pieces : List Text) :
    bodyParts (pieces.dropWhile isEmptyPiece) = bodyParts pieces := by
  induction pieces with
  | nil => rfl
  | cons piece pieces ih =>
    cases h : isEmptyPiece piece with
    | true => rw [List.dropWhile_cons_of_pos h, ih, bodyParts_cons_of_empty h]
    | false => rw [List.dropWhile_cons_of_neg (by simp [h])]

theorem bodyParts_reverse (pieces : List Text) : bodyParts pieces.reverse = (bodyParts pieces).reverse := by
  simp [bodyParts]

theorem bodyParts_trim (pieces : List Text) : bodyParts (trim pieces) = bodyParts pieces := by
  rw [trim, bodyParts_reverse, bodyParts_dropWhile, bodyParts_reverse, List.reverse_reverse,
    bodyParts_dropWhile]

theorem trim_front (pieces : List Text) : trim pieces <+: pieces.dropWhile isEmptyPiece :=
  List.rdropWhile_prefix isEmptyPiece (pieces.dropWhile isEmptyPiece)

theorem trim_subset (pieces : List Text) : trim pieces ⊆ pieces := fun _ hmem =>
  (List.dropWhile_sublist isEmptyPiece).subset ((trim_front pieces).subset hmem)

theorem isEmptyPiece_of_trim {pieces rest : List Text} {first : Text} (h : trim pieces = first :: rest) :
    isEmptyPiece first = false := by
  obtain ⟨z, hz⟩ := trim_front pieces
  have hhead := List.head?_dropWhile_not isEmptyPiece pieces
  rw [← hz, h] at hhead
  simpa using hhead

/-- Trimmed pieces make up a relative path without a leading dot. -/
theorem parts_join_trim {pieces : List Text} (h : ∀ piece ∈ pieces, '/' ∉ piece) :
    (Path.mk (Text.join ['/'] (trim pieces))).isAbsolute = false ∧
      (Path.mk (Text.join ['/'] (trim pieces))).steps = bodyParts pieces := by
  have hslash : ∀ piece ∈ trim pieces, '/' ∉ piece := fun piece hp => h piece (trim_subset pieces hp)
  have hbody := bodyParts_trim pieces
  cases htrim : trim pieces with
  | nil =>
    rw [htrim] at hbody
    exact ⟨rfl, hbody⟩
  | cons first rest =>
    have hfirst := isEmptyPiece_of_trim htrim
    rw [htrim] at hslash hbody
    have hpieces : (Path.mk (Text.join ['/'] (first :: rest))).pieces = first :: rest :=
      split_join (List.cons_ne_nil first rest) hslash
    constructor
    · -- an absolute path has an empty first piece
      by_contra habs
      have hempty := pieces_of_isAbsolute (Bool.of_not_eq_false habs)
      rw [hpieces] at hempty
      rw [(List.cons.inj hempty).1] at hfirst
      cases hfirst
    · rw [steps, hpieces, hbody]

theorem bodyParts_of_dropFirst? {first : Part} {p : Path} {left : List Text}
    (h : dropFirst? first p = some left) :
    p.parts = first :: bodyParts left ∧ ∀ piece ∈ left, '/' ∉ piece := by
  have hpieces : ∀ piece ∈ p.pieces, '/' ∉ piece := fun piece hp => not_mem_of_mem_split hp
  rw [parts_eq, lead]
  cases first with
  | root =>
    obtain ⟨habs, rfl⟩ : p.isAbsolute = true ∧ p.pieces.drop 1 = left := by simpa [dropFirst?] using h
    rw [if_pos habs, steps, pieces_of_isAbsolute habs, bodyParts_cons_of_empty rfl]
    exact ⟨rfl, fun piece hp => hpieces piece (List.mem_of_mem_drop hp)⟩
  | current =>
    obtain ⟨hdot, rfl⟩ : p.pieces.head? = some ['.'] ∧ p.pieces.drop 1 = left := by
      simpa [dropFirst?] using h
    obtain ⟨rest, hrest⟩ : ∃ rest, p.pieces = ['.'] :: rest := List.head?_eq_some_iff.1 hdot
    have habs : ¬ p.isAbsolute = true := fun habs => by
      have hempty := pieces_of_isAbsolute habs
      rw [hrest] at hempty
      cases hempty
    rw [if_neg habs, if_pos hdot, steps, hrest, bodyParts_cons_of_empty rfl]
    exact ⟨rfl, fun piece hp => hpieces piece (hrest ▸ List.mem_of_mem_drop hp)⟩
  | parent | name =>
    obtain ⟨⟨habs, hdot⟩, hdrop⟩ : (p.isAbsolute = false ∧ ¬ p.pieces.head? = some ['.']) ∧
        dropPart? _ p.pieces = some left := by simpa [dropFirst?] using h
    obtain ⟨hbody, hsub⟩ := bodyParts_of_dropPart? hdrop
    rw [habs, if_neg (by decide), if_neg hdot, steps, hbody]
    exact ⟨rfl, fun piece hp => hpieces piece (hsub hp)⟩

theorem exists_dropFirst? {first : Part} {parts : List Part} {p : Path} (h : p.parts = first :: parts) :
    ∃ left, dropFirst? first p = some left ∧ bodyParts left = parts := by
  rw [parts_eq] at h
  rcases p.lead_cases with ⟨habs, hlead⟩ | ⟨habs, hlead | hlead⟩
  · rw [hlead, steps, pieces_of_isAbsolute habs, bodyParts_cons_of_empty rfl] at h
    obtain ⟨rfl, hparts⟩ := List.cons.inj h
    exact ⟨p.pieces.drop 1, if_pos habs, hparts⟩
  · have hdot : p.pieces.head? = some ['.'] := by
      by_contra hdot
      simp [lead, habs, hdot] at hlead
    obtain ⟨rest, hrest⟩ : ∃ rest, p.pieces = ['.'] :: rest := List.head?_eq_some_iff.1 hdot
    rw [hlead, steps, hrest, bodyParts_cons_of_empty rfl] at h
    obtain ⟨rfl, hparts⟩ := List.cons.inj h
    exact ⟨p.pieces.drop 1, if_pos hdot, by rw [hrest]; exact hparts⟩
  · have hdot : ¬ p.pieces.head? = some ['.'] := fun hdot => by
      simp [lead, habs, hdot] at hlead
    rw [hlead, List.nil_append] at h
    have hmem : first ∈ p.steps := by simp [h]
    have hfirst := mem_steps hmem
    have hdrop : dropFirst? first p = dropPart? first p.pieces := by
      cases first with
      | root => exact absurd rfl hfirst.1
      | current => exact absurd rfl hfirst.2
      | parent | name => simp [dropFirst?, habs, hdot]
    rw [hdrop]
    exact exists_dropPart? h

/-- **A path told from a directory leads back when it is joined to that directory.** -/
theorem parts_join_from? {p base r : Path} (h : p.from? base = some r) : (base.join r).parts = p.parts := by
  cases hbase : base.parts with
  | nil =>
    have hr : p.from? base = some p := by rw [from?, hbase]
    obtain rfl : p = r := Option.some.inj (hr.symm.trans h)
    rw [join_of_text_eq_nil (parts_eq_nil_iff.1 hbase)]
  | cons first rest =>
    have hne : base.text ≠ [] := fun hnil => by
      rw [parts_of_text_eq_nil hnil] at hbase
      cases hbase
    rw [from?_of_parts hbase, Option.map_eq_some_iff] at h
    obtain ⟨left, hleft, rfl⟩ := h
    obtain ⟨between, hfirst, hrest⟩ := Option.bind_eq_some_iff.1 hleft
    obtain ⟨hparts, hslash⟩ := bodyParts_of_dropFirst? hfirst
    obtain ⟨hbetween, hsub⟩ := bodyParts_of_dropParts? hrest
    obtain ⟨habs, hsteps⟩ := parts_join_trim fun piece hp => hslash piece (hsub hp)
    rw [parts_join hne habs, hsteps, hbase, hparts, hbetween]
    rfl

/-- A path whose parts begin with those of a directory can be told from it. -/
theorem exists_from? {p base : Path} {parts : List Part} (h : p.parts = base.parts ++ parts) :
    ∃ r, p.from? base = some r := by
  cases hbase : base.parts with
  | nil => exact ⟨p, by rw [from?, hbase]⟩
  | cons first rest =>
    rw [hbase, List.cons_append] at h
    obtain ⟨between, hfirst, hbetween⟩ := exists_dropFirst? h
    obtain ⟨left, hleft⟩ := exists_dropParts? hbetween
    exact ⟨_, by rw [from?_of_parts hbase, hfirst, Option.bind_some, hleft, Option.map_some]⟩

/-- **Whether or not a path below a joined directory can be told from the base, joining leads back to it.** -/
theorem parts_join_told {base dir p : Path} {parts : List Part}
    (h : p.parts = (base.join dir).parts ++ parts) :
    (base.join ((p.from? base).getD p)).parts = p.parts := by
  cases hfrom : p.from? base with
  | some r => exact parts_join_from? hfrom
  | none =>
    rw [Option.getD_none]
    by_cases hdir : dir.isAbsolute = true
    · rw [join_of_isAbsolute base hdir] at h
      have habs : p.isAbsolute = true := by
        rw [← head?_parts_eq_root_iff, h, List.head?_append, head?_parts_eq_root_iff.2 hdir]
        rfl
      rw [join_of_isAbsolute base habs]
    · by_cases hbase : base.text = []
      · rw [join_of_text_eq_nil hbase]
      · rw [parts_join hbase (by simpa using hdir), List.append_assoc] at h
        obtain ⟨r, hr⟩ := exists_from? h
        rw [hr] at hfrom
        cases hfrom

end SpinnerMarkup.Path
