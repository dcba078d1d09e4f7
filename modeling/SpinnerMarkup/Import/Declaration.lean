import SpinnerMarkup.Text.Basic

/-! Import declarations as they are written out. -/
namespace SpinnerMarkup.Import

/-- The module that exports the components, unless told otherwise. -/
def defaultModule : Text := "@/components/ui/Loading".toList

/-- The declaration that imports `symbols` from `module`. -/
def declaration (module : Text) (symbols : List Text) : Text :=
  "import \x7b ".toList ++ Text.join ", ".toList symbols ++ " \x7d from \"".toList ++ module ++
    "\";".toList

end SpinnerMarkup.Import
