import SpinnerMarkup.Yaml.Cursor

/-! Reading anchors, tags and directives. -/
namespace SpinnerMarkup.Yaml

open Text

/-! ### Anchors -/

/-- The name of an anchor or an alias, from its mark on. -/
def readAnchor? (c : Cursor) : Option (Text × Cursor) :=
  let (name, c) := (c.skip 1).span isNameChar
  let ends := c.head?.all fun d =>
    isBlankOrBreak d || ['?', ':', ',', ']', '\x7d', '%', '@', backtick].elem d
  if !name.isEmpty && (ends && c.sees 1) then some (name, c) else none

/-! ### Tags -/

/-- A tag as it is written: a handle and what follows it. -/
structure TagText where
  handle : Text
  suffix : Text
  deriving Repr, DecidableEq

/-- The characters of a tag besides those of names. -/
def isTagMark (c : Char) : Bool :=
  [';', '/', '?', ':', '@', '&', '=', '+', '$', '.', '%', '!', '~', '*', singleQuote, '(',
    ')'].elem c

/-- The characters of a tag; between angle brackets a few more are. -/
def isTagChar (verbatim : Bool) (c : Char) : Bool :=
  isNameChar c || (isTagMark c || (verbatim && [',', '[', ']'].elem c))

/-- The octet written as a percent sign and two digits at the front of a text. -/
def octet? (s : Text) : Option Nat :=
  match s with
  | a :: b :: d :: _ => if a = '%' then hexNumber? [b, d] else none
  | _ => none

/-- The number of octets in a sequence that begins with this one. -/
def sequenceLength? (octet : Nat) : Option Nat :=
  if octet < 0x80 then some 1
  else if 0xC0 ≤ octet ∧ octet < 0xE0 then some 2
  else if 0xE0 ≤ octet ∧ octet < 0xF0 then some 3
  else if 0xF0 ≤ octet ∧ octet < 0xF8 then some 4
  else none

/-- `n` octets that continue a sequence. -/
def continuation? : Nat → Text → Option Text
  | 0, _ => some []
  | n + 1, s =>
    match octet? s with
    | none => none
    | some octet =>
      if 0x80 ≤ octet ∧ octet < 0xC0 then
        (continuation? n (s.drop 3)).map (Char.ofNat octet :: ·)
      else none

/-- The characters of a tag: what they read as, octet by octet, and how many there are. -/
def tagChars? (verbatim : Bool) : (fuel : Nat) → Text → Option (Text × Nat)
  | 0, _ => some ([], 0)
  | _, [] => some ([], 0)
  | fuel + 1, c :: s =>
    if !isTagChar verbatim c then some ([], 0)
    else if c = '%' then
      match (octet? (c :: s)) with
      | none => none
      | some octet =>
        match (sequenceLength? octet) with
        | none => none
        | some n =>
          match continuation? (n - 1) (s.drop 2) with
          | none => none
          | some more =>
            (tagChars? verbatim fuel (s.drop (3 * n - 1))).map fun (value, length) =>
              (Char.ofNat octet :: more ++ value, length + 3 * n)
    else (tagChars? verbatim fuel s).map fun (value, length) => (c :: value, length + 1)

/-- The characters of a tag from a place on; `known` were read before. A null character ends what
they read as, whatever is written behind it. -/
def readTagChars? (verbatim : Bool) (known : Text) (c : Cursor) : Option (Text × Cursor) :=
  match tagChars? verbatim c.rest.length c.rest with
  | none => none
  | some (value, length) =>
    if known.isEmpty && length == 0 then none
    else some ((known.drop 1 ++ value).takeWhile (· != '\x00'), c.skip length)

/-- A handle: an exclamation mark, a name and perhaps a second mark. -/
def readHandle? (c : Cursor) : Option (Text × Cursor) :=
  if c.head? == some '!' then
    let (name, c) := (c.skip 1).span isNameChar
    if c.head? == some '!' then some ('!' :: name ++ ['!'], c.skip 1) else some ('!' :: name, c)
  else none

/-- A tag, from its mark on. -/
def tagText? (c : Cursor) : Option (TagText × Cursor) :=
  if c.at? 1 == some '<' then
    match readTagChars? true [] (c.skip 2) with
    | some (suffix, c) => if c.head? == some '>' then some (⟨[], suffix⟩, c.skip 1) else none
    | none => none
  else
    match readHandle? c with
    | none => none
    | some (handle, c) =>
      if handle.length > 1 && handle.getLast? == some '!' then
        (readTagChars? false [] c).map fun (suffix, c) => (⟨handle, suffix⟩, c)
      else
        (readTagChars? false handle c).map fun (suffix, c) =>
          (if suffix.isEmpty then ⟨[], ['!']⟩ else ⟨['!'], suffix⟩, c)

/-- A tag with what has to follow it: a blank or, inside brackets, a comma. -/
def readTag? (flow : Bool) (c : Cursor) : Option (TagText × Cursor) :=
  match tagText? c with
  | some (tag, c) =>
    let ends := endsWord c.head? || (flow && c.head? == some ',')
    if ends && c.sees 1 then some (tag, c) else none
  | none => none

/-! ### Directives -/

/-- What a document begins with. -/
inductive Directive where
  /-- The version of YAML. -/
  | version (major minor : Nat)
  /-- A handle and the text it stands for. -/
  | tag (handle start : Text)
  deriving Repr, DecidableEq

/-- A version number of at most nine digits. -/
def readVersionNumber? (c : Cursor) : Option (Nat × Cursor) :=
  let (digits, c) := c.span isDigit
  if 0 < digits.length ∧ digits.length ≤ 9 then
    some (digits.foldl (fun n d => 10 * n + (d.toNat - 48)) 0, c)
  else none

/-- The two numbers of a version. -/
def readVersion? (c : Cursor) : Option (Directive × Cursor) :=
  match readVersionNumber? (c.skipWhile isSpace) with
  | none => none
  | some (major, c) =>
    if c.head? == some '.' then
      (readVersionNumber? (c.skip 1)).map fun (minor, c) => (.version major minor, c)
    else none

/-- The handle and the text of a tag directive. -/
def readTagDirective? (c : Cursor) : Option (Directive × Cursor) :=
  match readHandle? (c.skipWhile isSpace) with
  | none => none
  | some (handle, c) =>
    let complete := handle == ['!'] || (handle.length > 1 && handle.getLast? == some '!')
    if complete && c.head?.any isSpace then
      match readTagChars? true [] (c.skipWhile isSpace) with
      | some (start, c) => if endsWord c.head? then some (.tag handle start, c) else none
      | none => none
    else none

/-- A directive with the rest of its line, from its mark on. -/
def readDirective? (c : Cursor) : Option (Directive × Cursor) :=
  let (name, c) := (c.skip 1).span isNameChar
  let value? :=
    if !endsWord c.head? then none
    else if name = "YAML".toList then readVersion? c
    else if name = "TAG".toList then readTagDirective? c
    else none
  match value? with
  | some (directive, c) => c.finishLine?.map fun c => (directive, c)
  | none => none

end SpinnerMarkup.Yaml
