import SpinnerMarkup.Rule

/-! The catalog: rules in the order they run, and the pass of the rules over a text.

A rule replaces every element it takes before the next rule sees the text, and every rule scans the
text it is given afresh. A catalog is ordered by tier as part of its type. -/
namespace SpinnerMarkup

/-! ### One rule -/

namespace Rule

/-- Whether a piece of a scan is an element the rule replaces. -/
def takes (r : Rule) : Piece Element → Bool
  | .plain _ => false
  | .found e => r.replaces e

/-- What a piece becomes: a replaced element its invocation, all else itself. -/
def rendered (r : Rule) (p : Piece Element) : Text :=
  if r.takes p then r.replacement.render else Element.pattern.pieceSource p

/-- The text after a rule has replaced every element it takes. -/
def apply (r : Rule) (t : Text) : Text := (Element.pattern.scan t).flatMap r.rendered

def count (r : Rule) (t : Text) : Nat := (Element.pattern.scan t).countP r.takes

end Rule

/-! ### All rules -/

/-- Rules ordered by tier. -/
structure Catalog where
  rules : List Rule
  /-- No rule comes before one of an earlier tier. -/
  ordered : rules.Pairwise fun a b => a.tier.rank ≤ b.tier.rank

/-- How often a rule replaced an element. -/
structure Hit where
  rule : Text
  component : Component
  count : Nat
  deriving Repr, DecidableEq

/-- The text after a pass, and the rules that changed it in the order they ran. -/
structure Outcome where
  text : Text
  hits : List Hit
  deriving Repr, DecidableEq

namespace Outcome

def changed (o : Outcome) : Bool := !o.hits.isEmpty

def replacements (o : Outcome) : Nat := o.hits.foldr (fun h n => h.count + n) 0

/-- The components the replacements use, each once, in the order of their first hit. -/
def components (o : Outcome) : List Component :=
  o.hits.foldl (fun seen h => if seen.elem h.component then seen else seen ++ [h.component]) []

/-- Runs one more rule. A rule that takes nothing leaves no hit. -/
def step (o : Outcome) (r : Rule) : Outcome :=
  let n := r.count o.text
  if n = 0 then o
  else { text := r.apply o.text, hits := o.hits ++ [⟨r.name, r.replacement.component, n⟩] }

end Outcome

namespace Catalog

/-- The rules of one tier, in the order given. -/
def ofTier (tier : Tier) (rules : List Rule) : List Rule := rules.filter (·.tier = tier)

/-- A catalog of the given rules; within a tier they keep their order. -/
def ofRules (rules : List Rule) : Catalog where
  rules := ofTier .large rules ++ ofTier .small rules ++ ofTier .generic rules
  ordered := by
    have mem {tier : Tier} {r : Rule} (h : r ∈ ofTier tier rules) : r.tier = tier := by
      simpa using (List.mem_filter.1 h).2
    have same (tier : Tier) :
        (ofTier tier rules).Pairwise fun a b => a.tier.rank ≤ b.tier.rank :=
      List.pairwise_of_forall_mem_list fun a ha b hb => Nat.le_of_eq (by rw [mem ha, mem hb])
    refine List.pairwise_append.2 ⟨List.pairwise_append.2 ⟨same _, same _, ?_⟩, same _, ?_⟩
    · intro a ha b hb
      rw [mem ha, mem hb]
      decide
    · intro a ha b hb
      rw [mem hb]
      rcases List.mem_append.1 ha with ha | ha <;> rw [mem ha] <;> decide

/-- The rules that are always known. -/
def standard : Catalog := ofRules
  [{ name := "large-centered".toList
     tier := .large
     sizes := .oneOf [8, 10, 12, 14, 16]
     required := ["rounded-full".toList]
     replacement := ⟨.centered, some .lg⟩ },
   { name := "small-inline".toList
     tier := .small
     sizes := .oneOf [4, 5]
     required := ["rounded-full".toList]
     replacement := ⟨.inline, none⟩ },
   { name := "small-centered".toList
     tier := .small
     sizes := .oneOf [6]
     required := ["rounded-full".toList]
     replacement := ⟨.centered, some .sm⟩ },
   { name := "generic-centered".toList
     tier := .generic
     sizes := .any
     required := []
     replacement := ⟨.centered, none⟩ }]

/-- Runs every rule over a text, in order. -/
def apply (c : Catalog) (t : Text) : Outcome := c.rules.foldl Outcome.step ⟨t, []⟩

end Catalog
end SpinnerMarkup
