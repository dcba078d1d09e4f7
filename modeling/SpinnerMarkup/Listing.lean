import SpinnerMarkup.Catalog
import SpinnerMarkup.Json

/-! The catalog as it is listed: one numbered line a rule, or a JSON list. -/
namespace SpinnerMarkup

def SizeMatch.toJson : SizeMatch → Json
  | .any => .str "any".toList
  | .oneOf sizes => .obj [("one_of".toList, .arr (sizes.map .num))]

def Invocation.toJson (i : Invocation) : Json :=
  .obj [("component".toList, .str i.component.label),
    ("size".toList, match i.size with
      | some size => .str size.label
      | none => .null)]

def Rule.toJson (r : Rule) : Json :=
  .obj [("name".toList, .str r.name), ("tier".toList, .str r.tier.label),
    ("sizes".toList, r.sizes.toJson), ("required".toList, .arr (r.required.map .str)),
    ("replacement".toList, r.replacement.toJson)]

/-- The rules of a catalog as JSON, in the order they run. -/
def Catalog.toJson (c : Catalog) : Json := .arr (c.rules.map Rule.toJson)

/-- The rules of a catalog, numbered from one, a line each. -/
def Catalog.listing (c : Catalog) : Text :=
  (c.rules.zipIdx 1).flatMap fun (r, n) => Text.ofNat n ++ ". ".toList ++ r.describe ++ ['\n']

end SpinnerMarkup
