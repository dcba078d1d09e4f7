import SpinnerMarkup.Markup.ClassList
import SpinnerMarkup.Markup.Spinner

/-! Rules: which spinners they take and what they make of them. -/
namespace SpinnerMarkup

/-- The priority group of a rule; earlier groups run first. -/
inductive Tier where
  /-- Sized spinners that fill a block. -/
  | large
  /-- Sized small spinners. -/
  | small
  /-- Every spinner left. -/
  | generic
  deriving Repr, DecidableEq

def Tier.rank : Tier → Nat
  | .large => 0
  | .small => 1
  | .generic => 2

/-- The name of a tier in listings. -/
def Tier.label : Tier → Text
  | .large => "large".toList
  | .small => "small".toList
  | .generic => "generic".toList

/-- One of the two components that stand for a spinner. -/
inductive Component where
  /-- A loading state that fills a block. -/
  | centered
  /-- A small indicator within a line. -/
  | inline
  deriving Repr, DecidableEq

/-- The exported name of a component. -/
def Component.symbol : Component → Text
  | .centered => "LoadingCentered".toList
  | .inline => "LoadingInline".toList

/-- The short name of a component in listings. -/
def Component.label : Component → Text
  | .centered => "Centered".toList
  | .inline => "Inline".toList

/-- The value of a component's `size` property. -/
inductive SizeOption where
  | sm
  | lg
  deriving Repr, DecidableEq

def SizeOption.label : SizeOption → Text
  | .sm => "sm".toList
  | .lg => "lg".toList

/-- The use of a component that replaces an element. -/
structure Invocation where
  component : Component
  size : Option SizeOption
  deriving Repr, DecidableEq

/-- The self-closing element of an invocation. -/
def Invocation.render (i : Invocation) : Text :=
  let size := match i.size with
    | some size => " size=\"".toList ++ size.label ++ "\"".toList
    | none => []
  "<".toList ++ i.component.symbol ++ size ++ " />".toList

/-- Which spinner sizes a rule takes. -/
inductive SizeMatch where
  /-- Every spinner, with a size or without. -/
  | any
  /-- A spinner whose size is listed. -/
  | oneOf (sizes : List Nat)
  deriving Repr, DecidableEq

def SizeMatch.accepts : SizeMatch → Option Nat → Bool
  | .any, _ => true
  | .oneOf _, none => false
  | .oneOf sizes, some n => sizes.elem n

/-- Which class lists are taken, and what an element with such a list becomes. -/
structure Rule where
  /-- The name in listings and hits. -/
  name : Text
  tier : Tier
  sizes : SizeMatch
  /-- The tokens wanted besides the spinner marker. -/
  required : List Text
  replacement : Invocation
  deriving Repr, DecidableEq

namespace Rule

/-- Whether class tokens are those of a spinner this rule takes. -/
def accepts (r : Rule) (tokens : List Text) : Bool :=
  tokens.elem Spinner.marker && r.required.all tokens.elem && r.sizes.accepts (Spinner.size? tokens)

/-- Whether an element is one this rule replaces. -/
def replaces (r : Rule) (e : Element) : Bool := (ClassList.tokens? e.attributes).any r.accepts

/-- One line that says what a rule takes and what it makes of it. -/
def describe (r : Rule) : Text :=
  let sizes := match r.sizes with
    | .any => []
    | .oneOf sizes =>
      ", size in \x7b".toList ++ Text.join ", ".toList (sizes.map Text.ofNat) ++ "\x7d".toList
  "[".toList ++ r.tier.label ++ "] ".toList ++ r.name ++ ": ".toList ++ Spinner.marker ++
    r.required.flatMap (" + ".toList ++ ·) ++ sizes ++ " -> ".toList ++ r.replacement.render

end Rule
end SpinnerMarkup
