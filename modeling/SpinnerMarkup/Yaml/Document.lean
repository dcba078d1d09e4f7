import SpinnerMarkup.Yaml.Event

/-! A document whose aliases are resolved.

Anchors are numbered: an anchor's number is how many different names there were before it. So a name
that is given again shares its number with the next new name, and an alias leads to whatever had
its number last. -/
namespace SpinnerMarkup.Yaml

/-- One step through a document; an alias carries the number of its anchor. -/
inductive Item where
  | scalar (s : Scalar)
  | sequenceStart
  | sequenceEnd
  | mappingStart
  | mappingEnd
  | alias (number : Nat)
  deriving Repr, DecidableEq

/-- A document as far as it could be read. -/
structure Linked where
  items : List Item
  /-- The place of the item that had a number last. -/
  places : List (Nat × Nat)
  /-- Whether all of the text was read. -/
  complete : Bool
  deriving Repr, DecidableEq

namespace Linked

/-- What is known of the anchors so far. -/
structure Anchors where
  numbers : List (Text × Nat)
  places : List (Nat × Nat)

/-- Gives the item at a place a name. -/
def Anchors.add (a : Anchors) (place : Nat) : Option Text → Anchors
  | none => a
  | some name =>
    let number := a.numbers.length
    let others := a.numbers.filter (·.1 != name)
    ⟨(name, number) :: others, (number, place) :: a.places⟩

/-- Resolves the aliases of events; stops at an alias that has no anchor. -/
def link (complete : Bool) (place : Nat) (a : Anchors) : List Event → Linked
  | [] => ⟨[], a.places, complete⟩
  | e :: events =>
    let go (a : Anchors) (item : Item) : Linked :=
      let rest := link complete (place + 1) a events
      { rest with items := item :: rest.items }
    match e with
    | .scalar anchor s => go (a.add place anchor) (.scalar s)
    | .sequenceStart anchor => go (a.add place anchor) .sequenceStart
    | .sequenceEnd => go a .sequenceEnd
    | .mappingStart anchor => go (a.add place anchor) .mappingStart
    | .mappingEnd => go a .mappingEnd
    | .alias name =>
      match a.numbers.lookup name with
      | some number => go a (.alias number)
      | none => ⟨[], a.places, false⟩

/-- The first document of a text with its aliases resolved. -/
def ofText (s : Text) : Linked :=
  let d := Document.ofText s
  link d.complete 0 ⟨[], []⟩ d.events

/-- The item at a place; none where the document breaks off. -/
def item? (d : Linked) (place : Nat) : Option Item := d.items[place]?

/-- The place an item leads to: for an alias that of its anchor, otherwise its own. -/
def target (d : Linked) (place : Nat) : Nat :=
  match d.item? place with
  | some (.alias number) => (d.places.lookup number).getD place
  | _ => place

end Linked
end SpinnerMarkup.Yaml
