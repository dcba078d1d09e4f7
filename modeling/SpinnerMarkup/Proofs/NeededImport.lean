import Mathlib.Data.List.Nodup
import SpinnerMarkup.Proofs.BytePreservation
import SpinnerMarkup.Proofs.Mention
import SpinnerMarkup.Proofs.SinglePass

/-! A changed text imports what it uses.

The declaration is written by one function and looked for by a recogniser that knows nothing of it.
`mentions_declaration` says that the recogniser accepts what is written, for any module whatever, and
`importsModule_insertLine` that it does so at any place the declaration may be put. What the
declaration names is read off its text: `listedNames_declaration` gives the names back, and they are
the components of the rules that fired, each once, in the order the rules ran (`update?_imports`). -/
namespace SpinnerMarkup

/-! ### The rules that fire -/

/-- The rules that take something when they run over a text in turn. -/
def firing : List Rule → Text → List Rule
  | [], _ => []
  | r :: rules, t => if r.count t = 0 then firing rules t else r :: firing rules (r.apply t)

/-- A rule fires exactly when it takes something in the text the rules before it leave. -/
theorem mem_firing_iff {rules : List Rule} {t : Text} {r : Rule} :
    r ∈ firing rules t ↔ ∃ pre post, rules = pre ++ r :: post ∧ r.count (textAfter pre t) ≠ 0 := by
  induction rules generalizing t with
  | nil => simp [firing]
  | cons r₀ rules ih =>
    -- the rule stands first and takes something, or fires in what the first rule leaves
    have hcons : (∃ pre post, r₀ :: rules = pre ++ r :: post ∧ r.count (textAfter pre t) ≠ 0) ↔
        (r = r₀ ∧ r₀.count t ≠ 0) ∨ r ∈ firing rules (r₀.apply t) := by
      rw [ih]
      constructor
      · rintro ⟨pre, post, hrules, hcount⟩
        cases pre with
        | nil =>
          obtain ⟨rfl, -⟩ := List.cons.inj hrules
          exact .inl ⟨rfl, hcount⟩
        | cons r₁ pre =>
          obtain ⟨rfl, htail⟩ : r₀ = r₁ ∧ rules = pre ++ r :: post := List.cons.inj hrules
          exact .inr ⟨pre, post, htail, hcount⟩
      · rintro (⟨rfl, hcount⟩ | ⟨pre, post, rfl, hcount⟩)
        · exact ⟨[], rules, rfl, hcount⟩
        · exact ⟨r₀ :: pre, post, rfl, hcount⟩
    rw [hcons, firing]
    by_cases h : r₀.count t = 0
    · simp [h, Rule.apply_of_count_eq_zero h]
    · simp [h]

theorem firing_sublist (rules : List Rule) (t : Text) : (firing rules t).Sublist rules := by
  induction rules generalizing t with
  | nil => exact List.Sublist.refl []
  | cons r rules ih =>
    rw [firing]
    split
    · exact (ih t).cons r
    · exact (ih (r.apply t)).cons_cons r

/-- The hits of a run are the hits of the rules that fire. -/
theorem hits_component_eq (rules : List Rule) (o : Outcome) :
    (rules.foldl Outcome.step o).hits.map Hit.component =
      o.hits.map Hit.component ++ (firing rules o.text).map (·.replacement.component) := by
  induction rules generalizing o with
  | nil => simp [firing]
  | cons r rules ih =>
    rw [List.foldl_cons, ih, firing]
    by_cases h : r.count o.text = 0
    · rw [Outcome.step_of_count_eq_zero h, if_pos h]
    · rw [Outcome.step_of_count_ne_zero h, if_neg h]
      simp

/-! ### Names between braces -/

namespace Import

open Text

/-- The names a line lists between its first braces, set apart by commas. -/
def listedNames (line : Text) : List Text :=
  (split ',' (((line.dropWhile (· != '\x7b')).drop 1).takeWhile (· != '\x7d'))).flatMap words

/-- A name as it may stand in a list of names. -/
structure IsName (t : Text) : Prop where
  ne_nil : t ≠ []
  not_blank : ∀ c ∈ t, isBlank c = false
  no_comma : ',' ∉ t
  no_brace : '\x7d' ∉ t
  plain : ∀ c ∈ t, endsSymbols c = false

theorem isName_symbol (c : Component) : IsName c.symbol := by
  have hblank : (c.symbol.all fun d => !isBlank d) = true := by cases c <;> decide
  have hplain : (c.symbol.all fun d => !endsSymbols d) = true := by cases c <;> decide
  refine ⟨?_, by simpa using hblank, ?_, ?_, by simpa using hplain⟩ <;> cases c <;> decide

/-- The names between the braces come back. -/
theorem words_split_join {symbols : List Text} (h : ∀ t ∈ symbols, IsName t) :
    (split ',' (' ' :: (join [',', ' '] symbols ++ [' ']))).flatMap words = symbols := by
  have hspace : isBlank ' ' = true := by decide
  have hword : ∀ t, IsName t → words (' ' :: t) = [t] ∧ words (' ' :: (t ++ [' '])) = [t] := by
    intro t ht
    rw [words_blank _ hspace, words_blank _ hspace,
      words_of_not_blank ht.ne_nil ht.not_blank, words_append_blank [] ht.ne_nil ht.not_blank hspace]
    exact ⟨rfl, rfl⟩
  have hcomma : ∀ t, IsName t → ',' ∉ ' ' :: t := by
    intro t ht
    rw [List.mem_cons, not_or]
    exact ⟨by decide, ht.no_comma⟩
  induction symbols with
  | nil => decide
  | cons t symbols ih =>
    obtain ⟨ht, hsymbols⟩ := List.forall_mem_cons.1 h
    cases symbols with
    | nil =>
      have hone : ',' ∉ ' ' :: (t ++ [' ']) := by
        rw [← List.cons_append, List.mem_append, not_or]
        exact ⟨hcomma t ht, by decide⟩
      rw [join, split_of_not_mem hone, List.flatMap_singleton, (hword t ht).2]
    | cons t' symbols =>
      have hjoin : ' ' :: (join [',', ' '] (t :: t' :: symbols) ++ [' ']) =
          ' ' :: t ++ ',' :: (' ' :: (join [',', ' '] (t' :: symbols) ++ [' '])) := by
        simp [join_cons_cons]
      rw [hjoin, split_append, split_of_not_mem (hcomma t ht), List.singleton_append, List.flatMap_cons,
        (hword t ht).1, ih hsymbols]
      rfl

theorem mem_join {between : Text} {symbols : List Text} {c : Char} (h : c ∈ join between symbols) :
    c ∈ between ∨ ∃ t ∈ symbols, c ∈ t := by
  induction symbols with
  | nil => cases h
  | cons t symbols ih =>
    cases symbols with
    | nil => exact .inr ⟨t, List.mem_singleton_self t, h⟩
    | cons t' symbols =>
      rw [join_cons_cons, List.append_assoc, List.mem_append, List.mem_append] at h
      rcases h with h | h | h
      · exact .inr ⟨t, List.mem_cons_self .., h⟩
      · exact .inl h
      · rcases ih h with h | ⟨t'', ht'', h⟩
        · exact .inl h
        · exact .inr ⟨t'', List.mem_cons_of_mem t ht'', h⟩

/-- What a declaration lists between its braces, with the blanks around it. -/
def listing (symbols : List Text) : Text := ' ' :: (join [',', ' '] symbols ++ [' '])

/-- How a declaration is made up: the keyword, the names between braces, `from` and the module. -/
theorem declaration_eq (m : Text) (symbols : List Text) :
    declaration m symbols = keyword ++ (' ' :: ('\x7b' :: (listing symbols ++ ['\x7d', ' ']) ++
      fromWord ++ [' ']) ++ doubleQuote :: (m ++ doubleQuote :: [';'])) := by
  have hopen : "import \x7b ".toList = keyword ++ [' ', '\x7b', ' '] := by decide +kernel
  have hfrom : " \x7d from \"".toList = [' ', '\x7d', ' '] ++ fromWord ++ [' ', doubleQuote] := by
    decide +kernel
  have hclose : "\";".toList = [doubleQuote, ';'] := by decide +kernel
  have hcomma : ", ".toList = [',', ' '] := by decide +kernel
  unfold declaration
  rw [hopen, hfrom, hclose, hcomma]
  simp [listing]

theorem getLast?_declaration (m : Text) (symbols : List Text) :
    (declaration m symbols).getLast? = some ';' := by
  rw [declaration_eq]
  simp [List.getLast?_append, List.getLast?_cons]

/-- What holds of the blanks and the commas and within the names holds throughout. -/
theorem forall_mem_listing {P : Char → Prop} {symbols : List Text} (hspace : P ' ') (hcomma : P ',')
    (h : ∀ t ∈ symbols, ∀ c ∈ t, P c) : ∀ c ∈ listing symbols, P c := by
  intro c hc
  rcases List.mem_cons.1 hc with rfl | hc
  · exact hspace
  · rcases List.mem_append.1 hc with hc | hc
    · rcases mem_join hc with hc | ⟨t, ht, hct⟩
      · obtain rfl | rfl : c = ',' ∨ c = ' ' := by simpa using hc
        · exact hcomma
        · exact hspace
      · exact h t ht c hct
    · obtain rfl := List.mem_singleton.1 hc
      exact hspace

/-- A declaration lists the names it was made with. -/
theorem listedNames_declaration (m : Text) {symbols : List Text} (h : ∀ t ∈ symbols, IsName t) :
    listedNames (declaration m symbols) = symbols := by
  have hinside : ∀ c ∈ listing symbols, (c != '\x7d') = true := by
    refine forall_mem_listing (by decide) (by decide) fun t ht c hc => ?_
    rw [bne_iff_ne]
    intro hbrace
    exact (h t ht).no_brace (hbrace ▸ hc)
  have hopen : ((declaration m symbols).dropWhile (· != '\x7b')).drop 1 = listing symbols ++
      '\x7d' :: (' ' :: (fromWord ++ ' ' :: (doubleQuote :: (m ++ [doubleQuote, ';'])))) := by
    rw [declaration_eq]
    simp [keyword]
  rw [listedNames, hopen, List.takeWhile_append_of_pos hinside, List.takeWhile_cons_of_neg (by decide),
    List.append_nil]
  exact words_split_join h

/-- **A declaration is an import of its module, whatever follows it.** -/
theorem mentions_declaration (m : Text) {symbols : List Text}
    (h : ∀ t ∈ symbols, ∀ c ∈ t, endsSymbols c = false) (r : Text) :
    Mentions m (declaration m symbols ++ r) := by
  have hlisting : ∀ c ∈ listing symbols, endsSymbols c = false :=
    forall_mem_listing (by decide) (by decide) h
  have hplain : ∀ c ∈ '\x7b' :: (listing symbols ++ ['\x7d', ' ']), endsSymbols c = false := by
    rw [List.forall_mem_cons, List.forall_mem_append]
    refine ⟨by decide, hlisting, fun c hc => ?_⟩
    obtain rfl | rfl : c = '\x7d' ∨ c = ' ' := by simpa using hc
    · decide
    · decide
  have hlast : ('\x7b' :: (listing symbols ++ ['\x7d', ' '])).getLast? = some ' ' := by
    rw [← List.cons_append, List.getLast?_append]
    rfl
  have hword : isWordChar ' ' = false := by decide +kernel
  have hapart : ('\x7b' :: (listing symbols ++ ['\x7d', ' '])).getLast?.any isWordChar = false := by
    rw [hlast, Option.any_some, hword]
  -- the braces and what they hold are the symbols of the import
  have hlead := Lead.symbols (c := ' ') (by decide) hplain hapart blanks_space
  refine ⟨[], _, doubleQuote, doubleQuote, ';' :: r, ?_, by simp, hlead, by decide, by decide⟩
  rw [declaration_eq]
  simp

/-! ### The place of the declaration -/

/-- An inserted line starts at the start of a line. -/
theorem atLineStart_separator (a s : Text) :
    atLineStart (a ++ separator a (lineEnd s)).getLast? = true := by
  unfold separator
  split
  · next h =>
    rw [List.append_nil]
    rcases h with rfl | h
    · rfl
    · rw [h]
      rfl
  · unfold lineEnd
    split <;> simp [atLineStart]

/-- **Wherever a declaration is put in, the text imports its module.** -/
theorem importsModule_insertLine_of_plain (p : Place) (s m : Text) {symbols : List Text}
    (h : ∀ t ∈ symbols, ∀ c ∈ t, endsSymbols c = false) :
    importsModule (p.insertLine (lineEnd s) (declaration m symbols)) m = true := by
  rw [insertLine_eq]
  refine importsModule_iff.2 ⟨p.before ++ separator p.before (lineEnd s),
    declaration m symbols ++ (lineEnd s ++ p.after), by simp, atLineStart_separator p.before s, ?_⟩
  exact mentions_declaration m h _

theorem importsModule_insertLine (p : Place) (s m : Text) {symbols : List Text}
    (h : ∀ t ∈ symbols, IsName t) :
    importsModule (p.insertLine (lineEnd s) (declaration m symbols)) m = true :=
  importsModule_insertLine_of_plain p s m fun t ht => (h t ht).plain

end Import

/-! ### The whole update -/

/-- No component is listed twice. -/
theorem Outcome.components_nodup (o : Outcome) : o.components.Nodup := by
  rw [components]
  induction o.hits using List.reverseRecOn with
  | nil => exact List.nodup_nil
  | append_singleton hits h ih =>
    rw [List.foldl_append, List.foldl_cons, List.foldl_nil]
    split
    · exact ih
    · next hnew =>
      rw [List.nodup_append_comm]
      exact List.nodup_cons.2 ⟨by simpa using hnew, ih⟩

/-- The names a changed text needs: those of the components of the rules that fire, each once, in the
order in which the rules first use them. -/
def Catalog.neededNames (c : Catalog) (source : Text) : List Text :=
  (((firing c.rules source).map (·.replacement.component)).eraseDups).map Component.symbol

namespace Catalog

theorem components_apply (c : Catalog) (source : Text) :
    (c.apply source).components =
      ((firing c.rules source).map (·.replacement.component)).eraseDups := by
  rw [Outcome.components_eq_eraseDups, apply, hits_component_eq]
  rfl

theorem symbols_apply (c : Catalog) (source : Text) :
    (c.apply source).components.map Component.symbol = c.neededNames source := by
  rw [components_apply, neededNames]

theorem mem_neededNames {c : Catalog} {source name : Text} :
    name ∈ c.neededNames source ↔
      ∃ r ∈ firing c.rules source, r.replacement.component.symbol = name := by
  simp [neededNames]

/-- A name is needed exactly when a rule with its component took something in the text it was given. -/
theorem mem_neededNames_iff {c : Catalog} {source name : Text} :
    name ∈ c.neededNames source ↔
      ∃ pre r post, c.rules = pre ++ r :: post ∧ r.count (textAfter pre source) ≠ 0 ∧
        r.replacement.component.symbol = name := by
  rw [mem_neededNames]
  constructor
  · rintro ⟨r, hr, hname⟩
    obtain ⟨pre, post, hrules, hcount⟩ := mem_firing_iff.1 hr
    exact ⟨pre, r, post, hrules, hcount, hname⟩
  · rintro ⟨pre, r, post, hrules, hcount, hname⟩
    exact ⟨r, mem_firing_iff.2 ⟨pre, post, hrules, hcount⟩, hname⟩

theorem neededNames_nodup (c : Catalog) (source : Text) : (c.neededNames source).Nodup := by
  have hinj : Function.Injective Component.symbol := by
    intro a b
    cases a <;> cases b <;> decide
  rw [← symbols_apply]
  exact (Outcome.components_nodup _).map hinj

theorem isName_of_mem_neededNames {c : Catalog} {source : Text} :
    ∀ name ∈ c.neededNames source, Import.IsName name := by
  intro name h
  obtain ⟨r, -, rfl⟩ := mem_neededNames.1 h
  exact Import.isName_symbol _

/-- The component of every invocation in the text of a run has a name that is needed. -/
theorem mem_neededNames_of_swapped {c : Catalog} {source old : Text} {r : Rule}
    (h : .swapped old r ∈ draftAfter c.rules source) :
    r.replacement.component.symbol ∈ c.neededNames source := by
  obtain ⟨-, -, n, hn⟩ := (traces_run c.rules source).swapped old r h
  have hhit : r.replacement.component ∈ (c.apply source).components := by
    rw [Outcome.components_eq_eraseDups, List.mem_eraseDups]
    exact List.mem_map_of_mem hn
  rw [← symbols_apply]
  exact List.mem_map_of_mem hhit

end Catalog

/-- A changed text imports what it uses. -/
structure ImportsNeeded (settings : Settings) (source : Text) (u : Update) : Prop where
  imported : Import.recognise settings.refusals u.text settings.module = .ok true
  /-- A declaration is put in exactly when the text the catalog leaves does not import the module. -/
  added_iff : u.importAdded = true ↔
    Import.recognise settings.refusals (settings.catalog.apply source).text settings.module = .ok false
  /-- A declaration that is put in stands on a line of its own and lists the names that are needed. -/
  declared : u.importAdded = true → ∃ a line b,
    (settings.catalog.apply source).text = a ++ b ∧
      u.text = a ++ (Import.separator a (Import.lineEnd (settings.catalog.apply source).text) ++ line ++
        Import.lineEnd (settings.catalog.apply source).text) ++ b ∧
      line = Import.declaration settings.module (settings.catalog.neededNames source) ∧
      Import.listedNames line = settings.catalog.neededNames source
  once : (settings.catalog.neededNames source).Nodup
  /-- The rules that fire stand in the order they run. -/
  ordered : (firing settings.catalog.rules source).Sublist settings.catalog.rules
  /-- The names are those of the rules that took something in the text they were given. -/
  fired : ∀ name, name ∈ settings.catalog.neededNames source ↔
    ∃ pre r post, settings.catalog.rules = pre ++ r :: post ∧ r.count (textAfter pre source) ≠ 0 ∧
      r.replacement.component.symbol = name
  /-- Every invocation that the run has put in the text has its component's name among them. -/
  invoked : (draftAfter settings.catalog.rules source).text = (settings.catalog.apply source).text ∧
    ∀ old r, .swapped old r ∈ draftAfter settings.catalog.rules source →
      r.replacement.component.symbol ∈ settings.catalog.neededNames source

/-- **A changed text imports what it uses.** -/
theorem update?_imports (settings : Settings) (source : Text) (u : Update)
    (h : settings.update? source = some u) : ImportsNeeded settings source u := by
  have hnames : ∀ t ∈ settings.catalog.neededNames source, Import.IsName t :=
    Catalog.isName_of_mem_neededNames
  have honce := settings.catalog.neededNames_nodup source
  have hordered := firing_sublist settings.catalog.rules source
  have hdraft := (traces_run settings.catalog.rules source).text
  have hsymbols := settings.catalog.symbols_apply source
  cases Settings.updated_of_update? h with
  | imported _ himports =>
    exact ⟨himports, by simp [himports], by simp, honce, hordered,
      fun _ => Catalog.mem_neededNames_iff, hdraft, fun _ _ => Catalog.mem_neededNames_of_swapped⟩
  | declared _ hmissing =>
    rw [hsymbols]
    have himports := Import.importsModule_insertLine (Import.place (settings.catalog.apply source).text)
      (settings.catalog.apply source).text settings.module hnames
    refine ⟨Import.recognise_of_importsModule hmissing himports, by simp [hmissing], fun _ => ?_, honce,
      hordered, fun _ => Catalog.mem_neededNames_iff, hdraft,
      fun _ _ => Catalog.mem_neededNames_of_swapped⟩
    exact ⟨_, _, _, (Import.place_split _).symm, Import.insertLine_eq _ _ _, rfl,
      Import.listedNames_declaration _ hnames⟩

/-- Two spinners after an import, on a last line that no line feed ends. -/
def spinnersOnLastLine : Text :=
  "import x from 'y'; <div className='animate-spin rounded-full h-4' />".toList ++
    "<div className=\"animate-spin\" />".toList

/-- Settings with a module whose name has an apostrophe and a bracket in it. -/
def oddModule : Settings where
  module := "it's [a*b".toList

def spinnersOnLastLineUpdate : Update where
  text := "import x from 'y'; <LoadingInline /><LoadingCentered />\n".toList ++
    "import \x7b LoadingInline, LoadingCentered \x7d from \"it's [a*b\";\n".toList
  replacements := 2
  importAdded := true

theorem spinnersOnLastLine_imported :
    oddModule.update? spinnersOnLastLine = some spinnersOnLastLineUpdate ∧
      ImportsNeeded oddModule spinnersOnLastLine spinnersOnLastLineUpdate := by
  have h : oddModule.update? spinnersOnLastLine = some spinnersOnLastLineUpdate := by decide +kernel
  exact ⟨h, update?_imports _ _ _ h⟩

end SpinnerMarkup
