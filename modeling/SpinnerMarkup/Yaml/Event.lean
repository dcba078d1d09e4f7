import SpinnerMarkup.Yaml.Token

/-! The events of a YAML document: its scalars, and where its lists and mappings begin and end.

The events come in the order of the text. When the tokens stop making sense, or run out, the events
up to there are kept: what they say may matter more than that the text is broken. -/
namespace SpinnerMarkup.Yaml

/-- A scalar with its tag, if it has one. -/
structure Scalar where
  text : Text
  style : Style
  tag : Option Text
  deriving Repr, DecidableEq

/-- One step through a document. What begins may have an anchor. -/
inductive Event where
  | scalar (anchor : Option Text) (s : Scalar)
  | sequenceStart (anchor : Option Text)
  | sequenceEnd
  | mappingStart (anchor : Option Text)
  | mappingEnd
  | alias (name : Text)
  deriving Repr, DecidableEq

/-- The tokens ahead, the events so far with the last in front, and what handles stand for. -/
structure Parser where
  ahead : List Token
  events : List Event
  handles : List (Text × Text)

/-- A step of the parser; a step that fails keeps the events it has told. -/
abbrev Parse := OptionT (StateM Parser)

namespace Parse

def peek : Parse Token := do
  match (← get).ahead with
  | [] => failure
  | t :: _ => return t

def skip : Parse Unit := modify fun p => { p with ahead := p.ahead.drop 1 }

def emit (e : Event) : Parse Unit := modify fun p => { p with events := e :: p.events }

/-- Tells an empty scalar where something is left out. -/
def emitEmpty : Parse Unit := emit (.scalar none ⟨[], .plain, none⟩)

/-! ### Nodes -/

/-- The tag that a written tag stands for. -/
def resolveTag (t : TagText) : Parse Text := do
  if t.handle.isEmpty then return t.suffix
  else
    match (← get).handles.lookup t.handle with
    | some start => return start ++ t.suffix
    | none => failure

/-- An anchor and a tag, in either order. -/
def properties : Parse (Option Text × Option Text) := do
  match ← peek with
  | .anchor name =>
    skip
    match ← peek with
    | .tag t => skip; return (some name, some (← resolveTag t))
    | _ => return (some name, none)
  | .tag t =>
    skip
    match ← peek with
    | .anchor name => skip; return (some name, some (← resolveTag t))
    | _ => return (none, some (← resolveTag t))
  | _ => return (none, none)

/-- Whether nothing stands between this token and the one before in a block. -/
def leavesOut (entries : Bool) : Token → Bool
  | .blockEnd => true
  | .blockEntry => entries
  | .key | .value => !entries
  | _ => false

/-- Whether nothing stands between this token and the one before inside brackets. -/
def leavesOutFlow (last : Token) (t : Token) : Bool := t == .flowEntry || t == last

mutual

/-- A node. Only in a block may it be a block of its own, and only as the value of a block mapping
may its entries stand at the column of the mapping. -/
def node : (fuel : Nat) → (block indentless : Bool) → Parse Unit
  | 0, _, _ => failure
  | fuel + 1, block, indentless => do
    match ← peek with
    | .alias name => emit (.alias name); skip
    | _ =>
      let (anchor, tag) ← properties
      match ← peek with
      | .scalar text style => emit (.scalar anchor ⟨text, style, tag⟩); skip
      | .flowSequenceStart => emit (.sequenceStart anchor); skip; flowSequence fuel true
      | .flowMappingStart => emit (.mappingStart anchor); skip; flowMapping fuel true
      | t =>
        if indentless && t == .blockEntry then
          emit (.sequenceStart anchor); indentlessSequence fuel
        else if block && t == .blockSequenceStart then
          emit (.sequenceStart anchor); skip; blockSequence fuel
        else if block && t == .blockMappingStart then
          emit (.mappingStart anchor); skip; blockMapping fuel
        else if anchor.isSome || tag.isSome then emit (.scalar anchor ⟨[], .plain, tag⟩)
        else failure

def blockSequence : (fuel : Nat) → Parse Unit
  | 0 => failure
  | fuel + 1 => do
    match ← peek with
    | .blockEntry =>
      skip
      if leavesOut true (← peek) then emitEmpty else node fuel true false
      blockSequence fuel
    | .blockEnd => emit .sequenceEnd; skip
    | _ => failure

/-- The entries of a sequence at the column of the mapping it is in. -/
def indentlessSequence : (fuel : Nat) → Parse Unit
  | 0 => failure
  | fuel + 1 => do
    match ← peek with
    | .blockEntry =>
      skip
      let t ← peek
      if leavesOut true t || leavesOut false t then emitEmpty else node fuel true false
      indentlessSequence fuel
    | _ => emit .sequenceEnd

def blockMapping : (fuel : Nat) → Parse Unit
  | 0 => failure
  | fuel + 1 => do
    match ← peek with
    | .key =>
      skip
      if leavesOut false (← peek) then emitEmpty else node fuel true true
      match ← peek with
      | .value =>
        skip
        if leavesOut false (← peek) then emitEmpty else node fuel true true
      | _ => emitEmpty
      blockMapping fuel
    | .blockEnd => emit .mappingEnd; skip
    | _ => failure

/-- The entries of a sequence in brackets. An entry may be a single key and its value. -/
def flowSequence : (fuel : Nat) → (first : Bool) → Parse Unit
  | 0, _ => failure
  | fuel + 1, first => do
    if (← peek) == .flowSequenceEnd then emit .sequenceEnd; skip
    else
      if !first then
        if (← peek) == .flowEntry then skip else failure
      match ← peek with
      | .key =>
        emit (.mappingStart none)
        skip
        let t ← peek
        if t == .value || leavesOutFlow .flowSequenceEnd t then skip; emitEmpty
        else node fuel false false
        flowValue fuel .flowSequenceEnd
        let _ ← peek
        emit .mappingEnd
        flowSequence fuel false
      | .flowSequenceEnd => emit .sequenceEnd; skip
      | _ => node fuel false false; flowSequence fuel false

/-- The keys and values of a mapping in brackets. -/
def flowMapping : (fuel : Nat) → (first : Bool) → Parse Unit
  | 0, _ => failure
  | fuel + 1, first => do
    if (← peek) == .flowMappingEnd then emit .mappingEnd; skip
    else
      if !first then
        if (← peek) == .flowEntry then skip else failure
      match ← peek with
      | .key =>
        skip
        let t ← peek
        if t == .value || leavesOutFlow .flowMappingEnd t then emitEmpty
        else node fuel false false
        flowValue fuel .flowMappingEnd
        flowMapping fuel false
      | .flowMappingEnd => emit .mappingEnd; skip
      | _ =>
        node fuel false false
        let _ ← peek
        emitEmpty
        flowMapping fuel false

/-- The value after a key inside brackets that `last` closes. -/
def flowValue : (fuel : Nat) → (last : Token) → Parse Unit
  | 0, _ => failure
  | fuel + 1, last => do
    match ← peek with
    | .value =>
      skip
      if leavesOutFlow last (← peek) then emitEmpty else node fuel false false
    | _ => emitEmpty

end

/-! ### Documents -/

/-- The handles every document knows. -/
def standardHandles : List (Text × Text) :=
  [(['!'], ['!']), (['!', '!'], "tag:yaml.org,2002:".toList)]

/-- Reads the directives of a document. Only versions 1.1 and 1.2 are known; a version or a handle
is not given twice. -/
def directives : (fuel : Nat) → (versionSeen : Bool) → Parse Unit
  | 0, _ => failure
  | fuel + 1, versionSeen => do
    match ← peek with
    | .directive (.version major minor) =>
      if versionSeen || major != 1 || (minor != 1 && minor != 2) then failure
      else skip; directives fuel true
    | .directive (.tag handle start) =>
      if (← get).handles.any (·.1 == handle) then failure
      else
        modify fun p => { p with handles := p.handles ++ [(handle, start)] }
        skip
        directives fuel versionSeen
    | _ => return

/-- Whether a document has no content before this token. -/
def endsDocument : Token → Bool
  | .directive _ | .documentStart | .documentEnd | .streamEnd => true
  | _ => false

/-- Reads past document ends; whether the stream ends there. -/
def streamEnds : (fuel : Nat) → Parse Bool
  | 0 => failure
  | fuel + 1 => do
    match ← peek with
    | .documentEnd => skip; streamEnds fuel
    | t => return t == .streamEnd

/-- Reads the first document of a stream: whether there is one and whether nothing follows. -/
def firstDocument (fuel : Nat) : Parse Bool := do
  let _ ← peek
  skip
  match ← peek with
  | .streamEnd => return true
  | t =>
    let explicit := t == .documentStart || t matches .directive _
    if explicit then
      directives fuel false
      if (← peek) == .documentStart then skip else failure
    modify fun p => { p with handles := p.handles ++ standardHandles }
    if explicit && endsDocument (← peek) then emitEmpty else node fuel true false
    if (← peek) == .documentEnd then skip
    streamEnds fuel

end Parse

/-- The first document of a text as far as it was read. -/
structure Document where
  events : List Event
  /-- Whether the text is YAML and holds no second document. -/
  complete : Bool
  deriving Repr, DecidableEq

/-- The first document of a text. -/
def Document.ofText (s : Text) : Document :=
  let ts := tokens s
  let (complete?, p) := (Parse.firstDocument (4 * ts.length + 16)).run ⟨ts, [], []⟩
  ⟨p.events.reverse, complete?.getD false⟩

end SpinnerMarkup.Yaml
