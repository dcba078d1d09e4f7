import SpinnerMarkup.Catalog
import SpinnerMarkup.Import.Insertion

/-! Updating one source text: the catalog pass, then the import its replacements need.

Only a source in which something was replaced is searched for the import, so only such a source can fail
for a module without a pattern. -/
namespace SpinnerMarkup

/-- How sources are updated. -/
structure Settings where
  catalog : Catalog := Catalog.standard
  /-- The module the components are imported from. -/
  module : Text := Import.defaultModule
  /-- The modules without a pattern, each with the reason. -/
  refusals : Import.Refusals := Import.noRefusals

/-- A changed source. -/
structure Update where
  text : Text
  /-- The number of replaced elements. -/
  replacements : Nat
  /-- Whether an import was inserted. -/
  importAdded : Bool
  deriving Repr, DecidableEq

namespace Settings

/-- The update of a source, none when no rule takes anything in it; an error when one does and the
module has no pattern. -/
def update (settings : Settings) (source : Text) : Except Error (Option Update) := do
  let outcome := settings.catalog.apply source
  if outcome.changed then
    let symbols := outcome.components.map Component.symbol
    match ← Import.add settings.refusals outcome.text settings.module symbols with
    | some text => return some ⟨text, outcome.replacements, true⟩
    | none => return some ⟨outcome.text, outcome.replacements, false⟩
  else return none

/-- The update of a source; none also where it fails. -/
def update? (settings : Settings) (source : Text) : Option Update :=
  (settings.update source).toOption.join

end Settings
end SpinnerMarkup
