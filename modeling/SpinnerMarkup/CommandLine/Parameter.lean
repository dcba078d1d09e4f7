import SpinnerMarkup.CommandLine.Argument
import SpinnerMarkup.Request

/-! Parameters: what the arguments behind a command are read into.

An option takes its value from behind an equals sign or from the next argument that is a word.
Values that came as words are looked at late: only when another parameter begins, or at the end. So
an argument that nothing takes is told before a bad value in front of it. -/
namespace SpinnerMarkup.CommandLine

/-- Something that arguments can set. -/
inductive Parameter where
  | paths
  | root
  | manifest
  | scan
  | extensions
  | dryRun
  | format
  deriving Repr, DecidableEq

namespace Parameter

def name : Parameter → String
  | .paths => "paths"
  | .root => "root"
  | .manifest => "manifest"
  | .scan => "scan"
  | .extensions => "ext"
  | .dryRun => "dry-run"
  | .format => "format"

/-- A parameter as it is told to the reader. -/
def label : Parameter → Text
  | .paths => "[PATHS]...".toList
  | .root => "--root <ROOT>".toList
  | .manifest => "--manifest <MANIFEST>".toList
  | .scan => "--scan <SCAN>".toList
  | .extensions => "--ext <EXT>".toList
  | .dryRun => "--dry-run".toList
  | .format => "--format <FORMAT>".toList

def takesValue (p : Parameter) : Bool := p ≠ .dryRun

/-- Whether a parameter may be given more than once. -/
def repeatable : Parameter → Bool
  | .paths | .extensions => true
  | _ => false

end Parameter

def format? (value : Text) : Option Format :=
  if value = "text".toList then some .text
  else if value = "json".toList then some .json
  else none

/-- What is wrong with a value of a parameter, if anything. -/
def Parameter.problem? (p : Parameter) (value : Text) : Option UsageError :=
  match p with
  | .extensions | .dryRun => none
  | .format =>
    if value.isEmpty then some (.missingValue p.label)
    else if (format? value).isNone then some (.invalidValue value p.label)
    else none
  | .paths | .root | .manifest | .scan =>
    if value.isEmpty then some (.missingValue p.label) else none

/-- The parameters that were given, each with its values, in order. -/
abbrev Given := List (Parameter × List Text)

namespace Given

def has (g : Given) (p : Parameter) : Bool := g.any (·.1 == p)

def values (g : Given) (p : Parameter) : List Text :=
  (g.filter (·.1 == p)).flatMap (·.2)

/-- Adds a parameter with its values, unless something is wrong with them. -/
def add (g : Given) (p : Parameter) (values : List Text) : Except UsageError Given :=
  if p.takesValue && values.isEmpty then .error (.missingValue p.label)
  else if !p.repeatable && g.has p then .error (.repeated p.label)
  else
    match values.findSome? p.problem? with
    | some problem => .error problem
    | none => .ok (g ++ [(p, values)])

def format (g : Given) : Format := ((g.values .format).head?.bind format?).getD .text

/-- The request that was given. Extensions are divided by commas. -/
def toRequest (g : Given) : Request :=
  let path? (p : Parameter) : Option Path := (g.values p).head?.map Path.mk
  { paths := (g.values .paths).map Path.mk
    root := path? .root
    manifest := path? .manifest
    scan := path? .scan
    extensions :=
      if g.has .extensions then (g.values .extensions).flatMap (Text.split ',')
      else ({} : Request).extensions
    dryRun := g.has .dryRun
    format := g.format }

end Given

/-! ### Reading arguments -/

/-- What a command takes: options, and a parameter for words that are no option's value. -/
structure Signature where
  options : List Parameter
  words : Option Parameter

def Signature.option? (sig : Signature) (name : Text) : Option Parameter :=
  sig.options.find? fun p => p.name.toList == name

/-- How far the arguments were read. -/
structure Reading where
  given : Given := []
  /-- The parameter that was begun last, with the values it got as words. -/
  begun : Option (Parameter × List Text) := none
  /-- Whether the parameter that was begun last waits for its value. -/
  waiting : Bool := false
  /-- Whether only words follow. -/
  ended : Bool := false

/-- How it goes on after an argument. -/
inductive Progress where
  | more (reading : Reading)
  /-- The reader asks for help. -/
  | help

namespace Reading

/-- Looks at the values of the parameter that was begun last. -/
def settle (r : Reading) : Except UsageError Reading :=
  match r.begun with
  | none => .ok r
  | some (p, values) => do
    return { r with given := ← r.given.add p values, begun := none, waiting := false }

/-- Takes a word as the value of the option that waits for one, or as what the command takes words
for. -/
def word (r : Reading) (sig : Signature) (w : Text) : Except UsageError Reading :=
  match r.begun, r.waiting && !r.ended with
  | some (p, values), true => .ok { r with begun := some (p, values ++ [w]), waiting := false }
  | _, _ =>
    match sig.words with
    | none => .error (.unexpected w)
    | some p =>
      match r.begun with
      | some (q, values) =>
        if q = p then .ok { r with begun := some (p, values ++ [w]) }
        else do return { (← r.settle) with begun := some (p, [w]) }
      | none => .ok { r with begun := some (p, [w]) }

/-- Takes an option, with the value behind its equals sign. -/
def option (r : Reading) (p : Parameter) (value : Option Text) : Except UsageError Reading :=
  match p.takesValue, value with
  | false, some v => .error (.unexpectedValue v p.label)
  | false, none => do
    let r ← r.settle
    return { r with given := ← r.given.add p [] }
  | true, some v => do
    let r ← r.settle
    return { r with given := ← r.given.add p [v] }
  | true, none => do return { (← r.settle) with begun := some (p, []), waiting := true }

/-- Takes one argument. -/
def step (r : Reading) (sig : Signature) (argument : Text) : Except UsageError Progress :=
  match r.ended, Argument.ofText argument with
  | true, _ | _, .word => do return .more (← r.word sig argument)
  | _, .ending => .ok (.more { r with ended := true })
  | _, .short flag =>
    if flag = 'h' then do
      let _ ← r.settle
      return .help
    else .error (.unexpected ['-', flag])
  | _, .long name value =>
    if name = "help".toList then
      match value with
      | some v => .error (.unexpectedValue v "--help".toList)
      | none => do
        let _ ← r.settle
        return .help
    else
      match sig.option? name with
      | none => .error (.unexpected ('-' :: '-' :: name))
      | some p => do return .more (← r.option p value)

/-- Reads arguments to their end, or until help is asked for. -/
def finish (sig : Signature) : Reading → List Text → Except UsageError (Option Given)
  | r, [] => do return some (← r.settle).given
  | r, argument :: rest => do
    match ← r.step sig argument with
    | .help => return none
    | .more r => finish sig r rest

end Reading

/-- What arguments give; none if they ask for help. -/
def Signature.read (sig : Signature) (arguments : List Text) : Except UsageError (Option Given) :=
  Reading.finish sig {} arguments

end SpinnerMarkup.CommandLine
