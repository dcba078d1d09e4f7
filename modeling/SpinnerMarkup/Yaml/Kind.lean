import SpinnerMarkup.Text.Float
import SpinnerMarkup.Text.Quoted
import SpinnerMarkup.Yaml.Event

/-! What kind of value a scalar is.

A plain scalar without a tag is a null, a truth value, a whole number, a number or else a string; a
tag for one of these asks for it; every other scalar is a string. -/
namespace SpinnerMarkup.Yaml

open Text

inductive Kind where
  | unit
  | boolean (b : Bool)
  /-- A whole number, and its width if that is unusual. -/
  | integer (written : Text) (width : Option Text)
  | float (written : Text)
  | string (s : Text)
  | sequence
  | map
  deriving Repr, DecidableEq

def Kind.describe : Kind → Text
  | .unit => "unit value".toList
  | .boolean b => "boolean ".toList ++ ticks (if b then "true".toList else "false".toList)
  | .integer written none => "integer ".toList ++ ticks written
  | .integer written (some width) =>
    "integer ".toList ++ ticks written ++ " as ".toList ++ width
  | .float written => "floating point ".toList ++ ticks written
  | .string s => "string ".toList ++ quote s
  | .sequence => "sequence".toList
  | .map => "map".toList
where
  /-- A text between two backticks. -/
  ticks (s : Text) : Text := backtick :: s ++ [backtick]

/-! ### Plain scalars -/

def isNull (s : Text) : Bool :=
  ["null".toList, "Null".toList, "NULL".toList, "~".toList].elem s

def boolean? (s : Text) : Option Bool :=
  if ["true".toList, "True".toList, "TRUE".toList].elem s then some true
  else if ["false".toList, "False".toList, "FALSE".toList].elem s then some false
  else none

/-- The value of digits to a base. -/
def digitsToBase? (base : Nat) (s : Text) : Option Nat :=
  if s.isEmpty then none
  else
    s.foldl (fun n? c => n?.bind fun n =>
      match hexValue? c with
      | some d => if d < base then some (base * n + d) else none
      | none => none) (some 0)

/-- The bases that a number may name in front. -/
def bases : List (Text × Nat) := [(['0', 'x'], 16), (['0', 'o'], 8), (['0', 'b'], 2)]

/-- The value of a number whose base is named in front. -/
def basedNumber? (s : Text) : Option Nat :=
  bases.findSome? fun (mark, base) => (after? mark s).bind (digitsToBase? base)

/-- Digits that begin with a needless zero are no number. -/
def hasNeedlessZero (s : Text) : Bool :=
  let s := match s with
    | '-' :: t | '+' :: t => t
    | t => t
  match s with
  | '0' :: c :: t => (c :: t).all isDigit
  | _ => false

/-- The value of a number without a minus sign. -/
def unsigned? (s : Text) : Option Nat :=
  let digits := match s with
    | '+' :: t => t
    | t => t
  match basedNumber? digits with
  | some n => some n
  | none => if hasNeedlessZero s then none else digitsToBase? 10 digits

/-- The value of a number behind its minus sign. -/
def negative? (s : Text) : Option Nat :=
  match s with
  | '-' :: t =>
    match basedNumber? t with
    | some n => some n
    | none => if hasNeedlessZero s then none else digitsToBase? 10 t
  | _ => none

/-- A negative number; zero has no sign. -/
def withMinus (n : Nat) : Text := if n = 0 then ['0'] else '-' :: ofNat n

/-- The whole number a text writes: of 64 bits if it fits, else of 128. -/
def integer? (s : Text) : Option Kind :=
  match unsigned? s, negative? s with
  | some n, _ =>
    if n < Nat.pow 2 64 then some (.integer (ofNat n) none)
    else if n < Nat.pow 2 128 then some (.integer (ofNat n) (some "u128".toList))
    else none
  | none, some n =>
    if n ≤ Nat.pow 2 63 then some (.integer (withMinus n) none)
    else if n ≤ Nat.pow 2 127 then some (.integer (withMinus n) (some "i128".toList))
    else none
  | none, none => none

/-- The number a text writes; infinities and the number that is none begin with a point. -/
def float? (s : Text) : Option Kind :=
  let unsigned := match s with
    | '+' :: t => t
    | t => t
  if [".inf".toList, ".Inf".toList, ".INF".toList].elem unsigned then some (.float "inf".toList)
  else if ["-.inf".toList, "-.Inf".toList, "-.INF".toList].elem s then some (.float "-inf".toList)
  else if [".nan".toList, ".NaN".toList, ".NAN".toList].elem s then some (.float "NaN".toList)
  else if s.head? = some '+' && unsigned.head?.any (fun c => c == '+' || c == '-') then none
  else ((Float.numeral? unsigned).bind Float.render?).map .float

/-- The kind of a plain scalar. -/
def plainKind (s : Text) : Kind :=
  if s.isEmpty || isNull s then .unit
  else
    match boolean? s with
    | some b => .boolean b
    | none =>
      match integer? s with
      | some kind => kind
      | none =>
        match if hasNeedlessZero s then none else float? s with
        | some kind => kind
        | none => .string s

/-! ### Tagged scalars -/

/-- The tag for one of the kinds that YAML knows. -/
def standardTag (name : String) : Text := "tag:yaml.org,2002:".toList ++ name.toList

/-- The kind of a scalar; none if its tag asks for a kind that its text does not spell. -/
def Scalar.kind? (s : Scalar) : Option Kind :=
  let untagged : Kind := if s.style = .plain then plainKind s.text else .string s.text
  match s.tag with
  | none => some untagged
  | some tag =>
    if tag = standardTag "bool" then (boolean? s.text).map .boolean
    else if tag = standardTag "int" then integer? s.text
    else if tag = standardTag "float" then float? s.text
    else if tag = standardTag "null" then if isNull s.text then some .unit else none
    else if tag.head? = some '!' then some untagged
    else some (.string s.text)

end SpinnerMarkup.Yaml
