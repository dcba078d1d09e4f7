import SpinnerMarkup.Proofs.InsertedLine
import SpinnerMarkup.Proofs.StatementMention

/-! The line ends of an update.

A declaration ends with the line end that the text uses, and that is looked up after the elements have been
replaced: line ends inside a replaced element are gone by then. `update?_lineEnds` says when a text whose
lines all end with a return and a line feed stays so: when no declaration is put in, or a line feed is left
outside the replaced elements. A text without returns gets none. `wrappedSpinner_mixed` is a text whose only
line end is inside a spinner. -/
namespace SpinnerMarkup

open Text

/-! ### Texts with two-character line ends -/

/-- Whether every line feed follows a return, given the character before the text. -/
def crlfFrom (before : Option Char) : Text → Bool
  | [] => true
  | c :: s => (c != '\n' || before == some '\r') && crlfFrom (some c) s

/-- Whether every line feed of a text follows a return. -/
def isCrlf (s : Text) : Bool := crlfFrom none s

theorem crlfFrom_cons_iff {before : Option Char} {c : Char} {s : Text} :
    crlfFrom before (c :: s) = true ↔ (c = '\n' → before = some '\r') ∧ crlfFrom (some c) s = true := by
  by_cases hc : c = '\n' <;> simp [crlfFrom, hc]

theorem crlfFrom_append_iff {before : Option Char} {a b : Text} :
    crlfFrom before (a ++ b) = true ↔
      crlfFrom before a = true ∧ crlfFrom (a.getLast?.or before) b = true := by
  induction a generalizing before with
  | nil => simp [crlfFrom]
  | cons c a ih =>
    rw [List.cons_append, crlfFrom_cons_iff, crlfFrom_cons_iff, ih, Pattern.getLast?_cons_or, and_assoc]

theorem crlfFrom_of_not_mem {before : Option Char} {s : Text} (h : '\n' ∉ s) : crlfFrom before s = true := by
  induction s generalizing before with
  | nil => rfl
  | cons c s ih =>
    obtain ⟨hc, hs⟩ : '\n' ≠ c ∧ '\n' ∉ s := by simpa using h
    exact crlfFrom_cons_iff.2 ⟨fun heq => absurd heq.symm hc, ih hs⟩

theorem crlfFrom_mono {before before' : Option Char} {s : Text} (hb : before = some '\r' → before' = some '\r')
    (h : crlfFrom before s = true) : crlfFrom before' s = true := by
  cases s with
  | nil => rfl
  | cons c s =>
    obtain ⟨hc, hs⟩ := crlfFrom_cons_iff.1 h
    exact crlfFrom_cons_iff.2 ⟨fun heq => hb (hc heq), hs⟩

/-- **What `isCrlf` asks of a text.** -/
theorem isCrlf_iff {s : Text} : isCrlf s = true ↔ ∀ a b, s = a ++ '\n' :: b → a.getLast? = some '\r' := by
  constructor
  · intro h a b hs
    rw [isCrlf, hs, crlfFrom_append_iff, crlfFrom_cons_iff, Option.or_none] at h
    exact h.2.1 rfl
  · intro h
    induction s using List.reverseRecOn with
    | nil => rfl
    | append_singleton s c ih =>
      have hs := ih fun a b hs => h a (b ++ [c]) (by simp [hs])
      refine crlfFrom_append_iff.2 ⟨hs, crlfFrom_cons_iff.2 ⟨fun hc => ?_, rfl⟩⟩
      rw [Option.or_none]
      exact h s [] (by rw [hc])

/-- Such a text with a line feed has a two-character line end. -/
theorem crlf_infix_iff {s : Text} (h : isCrlf s = true) : ['\r', '\n'] <:+: s ↔ '\n' ∈ s := by
  constructor
  · intro hin
    exact hin.subset (by simp)
  · intro hmem
    obtain ⟨a, b, rfl⟩ := List.append_of_mem hmem
    obtain ⟨w, rfl⟩ := List.getLast?_eq_some_iff.1 (isCrlf_iff.1 h a b rfl)
    exact ⟨w, b, by simp⟩

/-! ### What the catalog leaves -/

theorem Invocation.render_oneLine (i : Invocation) : '\n' ∉ i.render ∧ '\r' ∉ i.render := by
  rcases i with ⟨_ | _, _ | _ | _⟩ <;> decide

namespace Draft

/-- A character that no invocation holds is in the text exactly where it was kept. -/
theorem mem_text_iff {d : Draft} {c : Char} (hc : ∀ i : Invocation, c ∉ i.render) :
    c ∈ d.text ↔ .kept c ∈ d := by
  constructor
  · intro h
    obtain ⟨g, hg, hmem⟩ := List.mem_flatMap.1 h
    cases g with
    | kept b =>
      obtain rfl := List.mem_singleton.1 hmem
      exact hg
    | swapped old r => exact absurd hmem (hc r.replacement)
  · intro h
    exact List.mem_flatMap.2 ⟨_, h, List.mem_singleton_self c⟩

theorem mem_source_of_kept {d : Draft} {c : Char} (h : .kept c ∈ d) : c ∈ d.source :=
  List.mem_flatMap.2 ⟨_, h, List.mem_singleton_self c⟩

/-- **Replacing elements leaves every line feed after its return.** -/
theorem crlfFrom_text {d : Draft} (hd : ∀ old r, .swapped old r ∈ d → Bounded old)
    {before before' : Option Char} (hb : before = some '\r' → before' = some '\r')
    (h : crlfFrom before d.source = true) : crlfFrom before' d.text = true := by
  induction d generalizing before before' with
  | nil => rfl
  | cons g d ih =>
    have hd' : ∀ old r, .swapped old r ∈ d → Bounded old :=
      fun old r hr => hd old r (List.mem_cons_of_mem g hr)
    cases g with
    | kept c =>
      obtain ⟨hc, hrest⟩ := crlfFrom_cons_iff.1 h
      exact crlfFrom_cons_iff.2 ⟨fun heq => hb (hc heq), ih hd' id hrest⟩
    | swapped old r =>
      -- what is replaced ends with a closing mark, and so does what it is replaced by
      obtain ⟨v, hv, -⟩ := r.replacement.render_shape
      have hold := (hd old r (List.mem_cons_self ..)).closes
      rw [source_cons, Segment.source, crlfFrom_append_iff, hold] at h
      rw [text_cons, Segment.text, crlfFrom_append_iff]
      refine ⟨crlfFrom_of_not_mem r.replacement.render_oneLine.1, ih hd' (fun heq => ?_) h.2⟩
      exact absurd (Option.some.inj heq) (by decide)

end Draft

/-! ### The line that is put in -/

namespace Import

theorem not_mem_declaration {m : Text} {symbols : List Text} {c : Char} (hc : c = '\n' ∨ c = '\r')
    (hm : c ∉ m) (hsymbols : ∀ t ∈ symbols, IsName t) : c ∉ declaration m symbols := by
  have hlisting : c ∉ listing symbols := by
    have hlisted : ∀ d ∈ listing symbols, d ≠ '\n' ∧ d ≠ '\r' := by
      refine forall_mem_listing (by decide) (by decide) fun t ht d hd => ?_
      have hblank := (hsymbols t ht).not_blank d hd
      constructor <;> (intro heq; rw [heq] at hblank; exact absurd hblank (by decide))
    intro hmem
    rcases hc with rfl | rfl
    · exact (hlisted _ hmem).1 rfl
    · exact (hlisted _ hmem).2 rfl
  rw [declaration_eq]
  rcases hc with rfl | rfl <;> simp [keyword, fromWord, doubleQuote, hm, hlisting]

/-- **A line that is put in ends like the others exactly when there are others.** -/
theorem isCrlf_insertLine_iff {s line : Text} (hs : isCrlf s = true) (hline : '\n' ∉ line)
    (hlast : line.getLast? = some ';') :
    isCrlf ((place s).insertLine (lineEnd s) line) = true ↔ '\n' ∈ s := by
  rw [insertLine_eq]
  constructor
  · intro h
    refine Decidable.by_contra fun hfeed => ?_
    have heol : lineEnd s = ['\n'] := lineEnd_of_no_crlf (mt (crlf_infix_iff hs).1 hfeed)
    have hreturn := isCrlf_iff.1 h ((place s).before ++ separator (place s).before (lineEnd s) ++ line)
      (place s).after (by simp [heol])
    simp [List.getLast?_append, hlast] at hreturn
  · intro hfeed
    have heol : lineEnd s = ['\r', '\n'] := lineEnd_of_crlf ((crlf_infix_iff hs).2 hfeed)
    have hends : ∀ before, crlfFrom before (lineEnd s) = true := by
      intro before
      rw [heol]
      rfl
    have hsep : ∀ before, crlfFrom before (separator (place s).before (lineEnd s)) = true := by
      intro before
      unfold separator
      split
      · rfl
      · exact hends before
    rw [← place_split s, isCrlf, crlfFrom_append_iff] at hs
    have hafter : crlfFrom (some '\n') (place s).after = true := by
      rcases place_between s with hnil | hlines | hnil
      · rw [hnil] at hs
        exact crlfFrom_mono (by simp) hs.2
      · rw [hlines] at hs
        exact hs.2
      · rw [hnil]
        rfl
    rw [isCrlf, crlfFrom_append_iff, crlfFrom_append_iff, crlfFrom_append_iff, crlfFrom_append_iff]
    refine ⟨⟨hs.1, ⟨hsep _, crlfFrom_of_not_mem hline⟩, hends _⟩, ?_⟩
    rw [heol]
    simpa using hafter

/-- No return comes in with a line. -/
theorem not_mem_insertLine {s line : Text} (hs : '\r' ∉ s) (hline : '\r' ∉ line) :
    '\r' ∉ (place s).insertLine (lineEnd s) line := by
  have heol : lineEnd s = ['\n'] := lineEnd_of_no_crlf fun hin => hs (hin.subset (by simp))
  have hsep : '\r' ∉ separator (place s).before (lineEnd s) := by
    unfold separator
    split <;> simp [heol]
  rw [← place_split s, List.mem_append, not_or] at hs
  rw [insertLine_eq, heol] at *
  simp [hs.1, hs.2, hline, hsep]

end Import

/-! ### Updates -/

/-- **Two-character line ends stay, unless a declaration is put in after the last of them was replaced with an
element; and no return comes in.** -/
theorem update?_lineEnds (settings : Settings) (source : Text) (u : Update)
    (hmodule : '\n' ∉ settings.module ∧ '\r' ∉ settings.module) (h : settings.update? source = some u) :
    (isCrlf source = true → (isCrlf u.text = true ↔
        u.importAdded = false ∨ .kept '\n' ∈ draftAfter settings.catalog.rules source)) ∧
      ('\r' ∉ source → '\r' ∉ u.text) := by
  have htraces := traces_run settings.catalog.rules source
  have hnames : ∀ t ∈ settings.catalog.neededNames source, Import.IsName t :=
    Catalog.isName_of_mem_neededNames
  have hcrlf : isCrlf source = true → isCrlf (settings.catalog.apply source).text = true := by
    intro hsource
    rw [← htraces.source] at hsource
    exact (congrArg isCrlf htraces.text).symm.trans
      (Draft.crlfFrom_text (fun old r hr => (htraces.swapped old r hr).1) id hsource)
  have hkept : ∀ {c}, (∀ i : Invocation, c ∉ i.render) →
      (c ∈ (settings.catalog.apply source).text ↔ .kept c ∈ draftAfter settings.catalog.rules source) := by
    intro c hc
    have hmem := Draft.mem_text_iff (d := draftAfter settings.catalog.rules source) hc
    rwa [htraces.text] at hmem
  have hreturn : '\r' ∉ source → '\r' ∉ (settings.catalog.apply source).text := by
    intro hsource hmem
    have hdraft := Draft.mem_source_of_kept ((hkept fun i => i.render_oneLine.2).1 hmem)
    rw [htraces.source] at hdraft
    exact hsource hdraft
  have hsymbols := settings.catalog.symbols_apply source
  cases Settings.updated_of_update? h with
  | imported => exact ⟨fun hsource => iff_of_true (hcrlf hsource) (.inl rfl), hreturn⟩
  | declared =>
    rw [hsymbols]
    constructor
    · intro hsource
      have hline := Import.not_mem_declaration (.inl rfl) hmodule.1 hnames
      rw [Import.isCrlf_insertLine_iff (hcrlf hsource) hline (Import.getLast?_declaration ..),
        hkept fun i => i.render_oneLine.1]
      simp
    · intro hsource
      have hline := Import.not_mem_declaration (.inr rfl) hmodule.2 hnames
      exact Import.not_mem_insertLine (hreturn hsource) hline

/-- A spinner with a line end inside it, and nothing else. -/
def wrappedSpinner : Text := "<div\r\n className=\"animate-spin\" />".toList

/-- Below a remark it is not the only line end. -/
def remarkedSpinner : Text := "// busy\r\n".toList ++ wrappedSpinner

def remarkedSpinnerUpdate : Update where
  text := "// busy\r\nimport \x7b LoadingCentered \x7d from \"@/components/ui/Loading\";\r\n".toList ++
    "<LoadingCentered />".toList
  replacements := 1
  importAdded := true

theorem remarkedSpinner_crlf :
    ('\n' ∉ Import.defaultModule ∧ '\r' ∉ Import.defaultModule) ∧ isCrlf remarkedSpinner = true ∧
      Settings.update? {} remarkedSpinner = some remarkedSpinnerUpdate ∧
      isCrlf remarkedSpinnerUpdate.text = true := by
  have hmodule : '\n' ∉ Import.defaultModule ∧ '\r' ∉ Import.defaultModule := by decide +kernel
  have hcrlf : isCrlf remarkedSpinner = true := by decide +kernel
  have h : Settings.update? {} remarkedSpinner = some remarkedSpinnerUpdate := by decide +kernel
  have hkept : .kept '\n' ∈ draftAfter Catalog.standard.rules remarkedSpinner := by decide +kernel
  exact ⟨hmodule, hcrlf, h, ((update?_lineEnds {} _ _ hmodule h).1 hcrlf).2 (.inr hkept)⟩

/-- **A line end that is replaced with its element is not kept to.** -/
theorem wrappedSpinner_mixed :
    Settings.update? {} wrappedSpinner = some ⟨Import.declaration Import.defaultModule
        ["LoadingCentered".toList] ++ "\n<LoadingCentered />".toList, 1, true⟩ ∧
      ¬ ∀ source u, '\n' ∈ source → isCrlf source = true → Settings.update? {} source = some u →
        isCrlf u.text = true := by
  have h : Settings.update? {} wrappedSpinner = some ⟨Import.declaration Import.defaultModule
      ["LoadingCentered".toList] ++ "\n<LoadingCentered />".toList, 1, true⟩ := by decide +kernel
  refine ⟨h, fun hall => ?_⟩
  have hcrlf := hall wrappedSpinner _ (by decide +kernel) (by decide +kernel) h
  exact absurd hcrlf (by decide +kernel)

end SpinnerMarkup
