import SpinnerMarkup.Proofs.Mention
import SpinnerMarkup.Update

/-! What updating a source comes to.

`Updated` says once how an update can end: a source in which nothing is replaced is left alone, whatever
the module; one in which something is has its import already, gets it, or fails because the module has
no pattern. What is said about the updates of a source is read off it. -/
namespace SpinnerMarkup.Settings

/-- The ways an update can end, by what the catalog makes of the source. -/
inductive Updated (settings : Settings) (o : Outcome) : Except Error (Option Update) → Prop where
  | unchanged : o.changed = false → Updated settings o (.ok none)
  /-- The module has no pattern. -/
  | barred {error : Error} : o.changed = true →
      Import.recognise settings.refusals o.text settings.module = .error error →
      Updated settings o (.error error)
  /-- The text the catalog leaves has the import already. -/
  | imported : o.changed = true →
      Import.recognise settings.refusals o.text settings.module = .ok true →
      Updated settings o (.ok (some ⟨o.text, o.replacements, false⟩))
  | declared : o.changed = true →
      Import.recognise settings.refusals o.text settings.module = .ok false →
      Updated settings o (.ok (some ⟨(Import.place o.text).insertLine (Import.lineEnd o.text)
        (Import.declaration settings.module (o.components.map Component.symbol)), o.replacements, true⟩))

section Outcomes
variable {settings : Settings} {source : Text}

/-- An update ends in one of these ways. -/
theorem updated (settings : Settings) (source : Text) :
    Updated settings (settings.catalog.apply source) (settings.update source) := by
  rw [update]
  generalize settings.catalog.apply source = o
  dsimp only
  split
  · next hchanged =>
    cases hadd : Import.add settings.refusals o.text settings.module
        (o.components.map Component.symbol) with
    | error error => exact .barred hchanged (Import.add_eq_error_iff.1 hadd)
    | ok text? =>
      cases text? with
      | none => exact .imported hchanged (Import.add_eq_ok_none_iff.1 hadd)
      | some text =>
        obtain ⟨hmissing, rfl⟩ := Import.add_eq_ok_some_iff.1 hadd
        exact .declared hchanged hmissing
  · next hchanged => exact .unchanged (Bool.not_eq_true _ ▸ hchanged)

/-- **A source is left alone exactly when no rule takes anything in it.** -/
theorem update_eq_ok_none_iff :
    settings.update source = .ok none ↔ (settings.catalog.apply source).changed = false := by
  have h := settings.updated source
  generalize settings.update source = result at h
  cases h with
  | unchanged hchanged => simp [hchanged]
  | barred hchanged | imported hchanged | declared hchanged => simp [hchanged]

/-- **An update fails exactly when something is replaced and the module has no pattern.** -/
theorem update_eq_error_iff {error : Error} :
    settings.update source = .error error ↔ (settings.catalog.apply source).changed = true ∧
      ∃ why, settings.refusals settings.module = some why ∧
        Import.invalidModule settings.module why = error := by
  rw [← @Import.recognise_eq_error_iff settings.refusals settings.module
    (settings.catalog.apply source).text]
  have h := settings.updated source
  generalize settings.update source = result at h
  cases h with
  | unchanged hchanged => simp [hchanged]
  | barred hchanged hadd | imported hchanged hadd | declared hchanged hadd => simp [hchanged, hadd]

/-- What a failed update tells. -/
theorem exists_update_eq_error_iff {text : Text} :
    (∃ error, settings.update source = .error error ∧ error.message = text) ↔
      (settings.catalog.apply source).changed = true ∧
        ∃ why, settings.refusals settings.module = some why ∧
          (Import.invalidModule settings.module why).message = text := by
  refine ⟨fun h => ?_, fun h => ?_⟩
  · obtain ⟨error, hupdate, htext⟩ := h
    obtain ⟨hchanged, why, hwhy, rfl⟩ := update_eq_error_iff.1 hupdate
    exact ⟨hchanged, why, hwhy, htext⟩
  · obtain ⟨hchanged, why, hwhy, htext⟩ := h
    exact ⟨_, update_eq_error_iff.2 ⟨hchanged, why, hwhy, rfl⟩, htext⟩

theorem update?_eq_some_iff {u : Update} :
    settings.update? source = some u ↔ settings.update source = .ok (some u) := by
  unfold update?
  cases settings.update source with
  | error error => simp [Except.toOption]
  | ok u? => simp [Except.toOption]

theorem updated_of_update? {u : Update} (h : settings.update? source = some u) :
    Updated settings (settings.catalog.apply source) (.ok (some u)) :=
  update?_eq_some_iff.1 h ▸ settings.updated source

end Outcomes
end SpinnerMarkup.Settings
