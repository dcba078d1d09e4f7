import SpinnerMarkup.Error
import SpinnerMarkup.Yaml.Document
import SpinnerMarkup.Yaml.Kind

/-! Manifests: YAML mappings that list target files and may name the directory they are in.

A manifest has a list `files` and may have a `root`; every scalar is taken as a path, whatever it
would mean elsewhere. The first problem in the order of the text is told, and a text that breaks off
is a problem only where the reader gets to the break. Loading a manifest leaves open who reads the text
(`Reader`): what is told about a text that is no YAML is up to the reader. -/
namespace SpinnerMarkup

open Yaml

/-- A list of target files. -/
structure Manifest where
  /-- The directory that the files are taken from. -/
  root : Option Path
  files : List Path
  deriving Repr, DecidableEq

namespace Manifest

/-! ### Problems -/

/-- What is wrong with a manifest. A place is empty for the manifest as a whole. -/
inductive Problem where
  /-- The text is no YAML, more than one document, or a scalar that belies its tag. -/
  | malformed
  | missingField (name : Text)
  | unknownField (name : Text)
  | duplicateField (name : Text)
  | invalidType (place : Text) (got : Kind) (wanted : Text)
  deriving Repr, DecidableEq

/-- The name of a field between two backticks. -/
def ticked (name : Text) : Text := Text.backtick :: name ++ [Text.backtick]

/-- A place before what is wrong there. -/
def placed (place : Text) : Text := if place.isEmpty then [] else place ++ ": ".toList

def Problem.message : Problem → Text
  | .malformed => "<yaml>".toList
  | .missingField name => "missing field ".toList ++ ticked name
  | .unknownField name =>
    "unknown field ".toList ++ ticked name ++ ", expected ".toList ++ ticked "root".toList ++
      " or ".toList ++ ticked "files".toList
  | .duplicateField name => "duplicate field ".toList ++ ticked name
  | .invalidType place got wanted =>
    placed place ++ "invalid type: ".toList ++ got.describe ++ ", expected ".toList ++ wanted

/-! ### Reading -/

/-- The problem that an item is not what is wanted at a place. -/
def unexpected (place : Text) (item : Item) (wanted : String) : Problem :=
  match item with
  | .scalar s =>
    match s.kind? with
    | some kind => .invalidType place kind wanted.toList
    | none => .malformed
  | .mappingStart => .invalidType place .map wanted.toList
  | _ => .invalidType place .sequence wanted.toList

/-- Whether an item stands for nothing. -/
def isNothing : Item → Bool
  | .scalar s => s.text.isEmpty && s.style = .plain
  | _ => false

/-- The item that the item at a place leads to. -/
def itemAt (d : Linked) (place : Nat) : Except Problem Item :=
  match d.item? (d.target place) with
  | some item => .ok item
  | none => .error .malformed

def pathAt (d : Linked) (name : Text) (place : Nat) : Except Problem Path := do
  match ← itemAt d place with
  | .scalar s => return ⟨s.text⟩
  | item => throw (unexpected name item "path string")

/-- The path at a place, if it is not null. -/
def optionalPathAt (d : Linked) (name : Text) (place : Nat) : Except Problem (Option Path) := do
  match ← itemAt d place with
  | .scalar s =>
    if s.style ≠ .plain then return some ⟨s.text⟩
    else
      match s.tag with
      | none => return if s.text.isEmpty || isNull s.text then none else some ⟨s.text⟩
      | some tag =>
        if tag = standardTag "null" then
          if isNull s.text then return none else throw .malformed
        else return some ⟨s.text⟩
  | item => throw (unexpected name item "path string")

/-- The paths of a list from a place on, and the place behind the list. -/
def pathsFrom (d : Linked) (name : Text) :
    (fuel : Nat) → (index place : Nat) → Except Problem (List Path × Nat)
  | 0, _, _ => .error .malformed
  | fuel + 1, index, place =>
    match d.item? place with
    | none => .error .malformed
    | some .sequenceEnd => .ok ([], place + 1)
    | some _ => do
      let path ← pathAt d (name ++ "[".toList ++ Text.ofNat index ++ "]".toList) place
      let (paths, next) ← pathsFrom d name fuel (index + 1) (place + 1)
      return (path :: paths, next)

/-- The list at a place, and the place behind it. -/
def pathsAt (d : Linked) (name : Text) (place : Nat) : Except Problem (List Path × Nat) := do
  let target := d.target place
  match ← itemAt d place with
  | .sequenceStart =>
    let (paths, next) ← pathsFrom d name (d.items.length + 1) 0 (target + 1)
    return (paths, if target = place then next else place + 1)
  | item =>
    if isNothing item then return ([], place + 1)
    else throw (unexpected name item "a sequence")

/-- The name of the field whose key is at a place, and the name that problems with it use. -/
def fieldAt (d : Linked) (place : Nat) : Except Problem (Text × Text) := do
  match ← itemAt d place with
  | .scalar s => return (s.text, if d.target place = place then s.text else ['?'])
  | item => throw (unexpected [] item "field identifier")

structure Fields where
  root : Option (Option Path)
  files : Option (List Path)

def fieldsFrom (d : Linked) : (fuel : Nat) → Fields → (place : Nat) → Except Problem Manifest
  | 0, _, _ => .error .malformed
  | fuel + 1, fields, place =>
    match d.item? place with
    | none => .error .malformed
    | some .mappingEnd =>
      match fields.files with
      | some files => .ok ⟨fields.root.getD none, files⟩
      | none => .error (.missingField "files".toList)
    | some _ => do
      let (field, name) ← fieldAt d place
      if field = "root".toList then
        if fields.root.isSome then throw (.duplicateField field)
        let root ← optionalPathAt d name (place + 1)
        fieldsFrom d fuel { fields with root := some root } (place + 2)
      else if field = "files".toList then
        if fields.files.isSome then throw (.duplicateField field)
        let (files, next) ← pathsAt d name (place + 1)
        fieldsFrom d fuel { fields with files := some files } next
      else throw (.unknownField field)

def ofDocument (d : Linked) : Except Problem Manifest := do
  let manifest ← match d.item? 0 with
    | none => if d.complete then throw (.missingField "files".toList) else throw .malformed
    | some .mappingStart => fieldsFrom d (d.items.length + 1) ⟨none, none⟩ 1
    | some item =>
      if isNothing item then throw (.missingField "files".toList)
      else throw (unexpected [] item "struct Manifest")
  if d.complete then return manifest else throw .malformed

def ofText (s : Text) : Except Problem Manifest := ofDocument (Linked.ofText s)

/-- A manifest whose root, if it is relative, is taken from the directory of the manifest. -/
def locatedAt (m : Manifest) (path : Path) : Manifest :=
  { m with root := m.root.map fun root =>
      if root.isAbsolute then root else path.parent.join root }

/-- A reader of manifests: the manifest a text is, or what is wrong with it, in words. -/
abbrev Reader := Text → Except Text Manifest

/-- The reader of YAML. It has no words of its own for a text that is malformed. -/
def yaml : Reader := fun s => (ofText s).mapError Problem.message

/-- The manifest at a path, given what reading the path gave. -/
def load (path : Path) (read : Except Fault Text) (reader : Reader := yaml) :
    Except Failure Manifest :=
  match read with
  | .error cause => .error (.core (.read path cause))
  | .ok text =>
    match reader text with
    | .error message => .error (.core (.manifest (path.text ++ ": ".toList ++ message)))
    | .ok manifest => .ok (manifest.locatedAt path)

end Manifest
end SpinnerMarkup
