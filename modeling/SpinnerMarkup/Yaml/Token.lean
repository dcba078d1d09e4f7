import SpinnerMarkup.Yaml.Property
import SpinnerMarkup.Yaml.Scalar

/-! The tokens of a YAML text.

Blocks are told by indentation: a block start is put before the first entry at a deeper column, a
block end before the first token left of it. A key is told only by the colon behind it: where a key
may stand its place is remembered, and the key token is put there once the colon is found. A key and
its colon stand on one line, at most 1024 bytes apart.

A text may stop being YAML somewhere. The tokens before that place are given, but not those that a
key could still have been put before. -/
namespace SpinnerMarkup.Yaml

open Text

inductive Style where
  | plain
  | quoted
  | block
  deriving Repr, DecidableEq

/-- A word, a mark or a change of indentation. -/
inductive Token where
  | streamStart
  | streamEnd
  | directive (d : Directive)
  | documentStart
  | documentEnd
  | blockSequenceStart
  | blockMappingStart
  | blockEnd
  | flowSequenceStart
  | flowSequenceEnd
  | flowMappingStart
  | flowMappingEnd
  | blockEntry
  | flowEntry
  | key
  | value
  | alias (name : Text)
  | anchor (name : Text)
  | tag (t : TagText)
  | scalar (text : Text) (style : Style)
  deriving Repr, DecidableEq

/-- A place where a key may begin. -/
structure PendingKey where
  /-- Whether nothing but a key can stand there. -/
  required : Bool
  /-- The number of tokens before the place. -/
  token : Nat
  index : Nat
  line : Nat
  column : Nat
  deriving Repr, DecidableEq

/-- Whether a key can no longer begin at a place once the reader stands at `c`. -/
def PendingKey.isStale (k : PendingKey) (c : Cursor) : Bool :=
  k.line < c.line || k.index + 1024 < c.index

/-- What is known while the tokens are read. -/
structure Lexer where
  cursor : Cursor
  tokens : Array Token
  /-- The column of the innermost block; minus one outside every block. -/
  indent : Int
  /-- The columns of the blocks around it, the innermost first. -/
  outer : List Int
  /-- The place of a pending key, for the block level and each open bracket, the innermost first. -/
  keys : List (Option PendingKey)
  /-- Whether a key may begin here. -/
  keyAllowed : Bool

namespace Lexer

def start (s : Text) : Lexer := ⟨.start s, #[.streamStart], -1, [], [none], true⟩

/-- Whether a bracket is open. -/
def inFlow (l : Lexer) : Bool := l.keys.length > 1

def push (l : Lexer) (t : Token) : Lexer := { l with tokens := l.tokens.push t }

/-- Puts a token before the token with number `n`. -/
def insertAt (l : Lexer) (n : Nat) (t : Token) : Lexer :=
  { l with tokens := l.tokens.take n ++ #[t] ++ l.tokens.drop n }

/-- Adds a token for `n` characters of the line. -/
def mark (l : Lexer) (t : Token) (n : Nat) : Lexer :=
  { l.push t with cursor := l.cursor.skip n }

/-! ### Keys -/

/-- Forgets the places where a key can no longer begin; none if one of them needs a key. -/
def dropStale? (l : Lexer) : Option Lexer :=
  let stale (k? : Option PendingKey) : Bool := k?.any (·.isStale l.cursor)
  if l.keys.any fun k? => stale k? && k?.any (·.required) then none
  else some { l with keys := l.keys.map fun k? => if stale k? then none else k? }

/-- Forgets the innermost place; none if it needs a key. -/
def dropKey? (l : Lexer) : Option Lexer :=
  match l.keys with
  | [] => some l
  | k? :: keys => if k?.any (·.required) then none else some { l with keys := none :: keys }

/-- Remembers this place, if a key may begin here. -/
def saveKey? (l : Lexer) : Option Lexer :=
  if l.keyAllowed then
    let c := l.cursor
    let required := !l.inFlow && l.indent == (c.column : Int)
    l.dropKey?.map fun l =>
      { l with keys := some ⟨required, l.tokens.size, c.index, c.line, c.column⟩ :: l.keys.drop 1 }
  else some l

/-! ### Blocks -/

/-- Opens a block at a column that is deeper than the innermost block's. -/
def roll (l : Lexer) (column : Nat) (at? : Option Nat) (t : Token) : Lexer :=
  if !l.inFlow && l.indent < (column : Int) then
    let l := { l with outer := l.indent :: l.outer, indent := column }
    match at? with
    | some n => l.insertAt n t
    | none => l.push t
  else l

/-- Closes the blocks of the list that are deeper than a column. -/
def closeBlocks (column : Int) : List Int → Lexer → Lexer
  | [], l => l
  | outer :: rest, l =>
    if column < l.indent then
      closeBlocks column rest { l.push .blockEnd with indent := outer, outer := rest }
    else l

/-- Closes the blocks that are deeper than a column. Inside brackets there are none. -/
def unroll (l : Lexer) (column : Int) : Lexer :=
  if l.inFlow then l else closeBlocks column l.outer l

/-! ### Blanks -/

/-- Past blanks, comments and line ends. A tab counts only where no key may begin; a byte order mark
may begin a line. -/
def skipBlanks : (fuel : Nat) → Lexer → Lexer
  | 0, l => l
  | fuel + 1, l =>
    let c := l.cursor
    let c := if c.column = 0 && c.head? == some '\uFEFF' then c.skip 1 else c
    let tabs := l.inFlow || !l.keyAllowed
    let c := (c.skipWhile fun d => d == ' ' || (tabs && d == '\t')).skipComment
    if c.head?.any isBreak then
      skipBlanks fuel { l with cursor := c.skipBreak, keyAllowed := l.keyAllowed || !l.inFlow }
    else { l with cursor := c }

/-! ### One token -/

/-- The end of the text, which also ends its last line. -/
def fetchEnd? (l : Lexer) : Option Lexer :=
  let c := l.cursor
  let c := if c.column = 0 then c else { c with line := c.line + 1, column := 0 }
  let l := { l with cursor := c }
  (l.unroll (-1)).dropKey?.map fun l => { l with keyAllowed := false }.push .streamEnd

/-- What begins or ends a document. -/
def fetchDirective? (l : Lexer) : Option Lexer :=
  match (l.unroll (-1)).dropKey? with
  | none => none
  | some l =>
    (readDirective? l.cursor).map fun (d, c) =>
      { l with keyAllowed := false, cursor := c }.push (.directive d)

/-- A mark between documents. -/
def fetchDocumentMark? (l : Lexer) (t : Token) : Option Lexer :=
  (l.unroll (-1)).dropKey?.map fun l => { l with keyAllowed := false }.mark t 3

def fetchOpen? (l : Lexer) (t : Token) : Option Lexer :=
  l.saveKey?.map fun l => { l with keys := none :: l.keys, keyAllowed := true }.mark t 1

def fetchClose? (l : Lexer) (t : Token) : Option Lexer :=
  l.dropKey?.map fun l =>
    { l with keys := if l.inFlow then l.keys.drop 1 else l.keys, keyAllowed := false }.mark t 1

/-- A comma. -/
def fetchFlowEntry? (l : Lexer) : Option Lexer :=
  l.dropKey?.map fun l => { l with keyAllowed := true }.mark .flowEntry 1

/-- A dash before an entry. -/
def fetchBlockEntry? (l : Lexer) : Option Lexer :=
  if !l.inFlow && !l.keyAllowed then none
  else
    (l.roll l.cursor.column none .blockSequenceStart).dropKey?.map fun l =>
      { l with keyAllowed := true }.mark .blockEntry 1

/-- A question mark before a key. -/
def fetchKey? (l : Lexer) : Option Lexer :=
  if !l.inFlow && !l.keyAllowed then none
  else
    (l.roll l.cursor.column none .blockMappingStart).dropKey?.map fun l =>
      { l with keyAllowed := !l.inFlow }.mark .key 1

/-- A colon: it makes the innermost pending place a key, or follows a marked key. -/
def fetchValue? (l : Lexer) : Option Lexer :=
  match l.keys with
  | some k :: keys =>
    let l := (l.insertAt k.token .key).roll k.column (some k.token) .blockMappingStart
    some ({ l with keys := none :: keys, keyAllowed := false }.mark .value 1)
  | _ =>
    if !l.inFlow && !l.keyAllowed then none
    else
      let l := l.roll l.cursor.column none .blockMappingStart
      some ({ l with keyAllowed := !l.inFlow }.mark .value 1)

/-- A token that may begin a key and is read as a whole. -/
def fetchWord? (l : Lexer) (read? : Cursor → Option (Token × Cursor)) : Option Lexer :=
  match l.saveKey? with
  | none => none
  | some l =>
    (read? l.cursor).map fun (t, c) => { l with keyAllowed := false, cursor := c }.push t

/-- A plain scalar. A key may begin on the line after it. -/
def fetchPlain? (l : Lexer) : Option Lexer :=
  match l.saveKey? with
  | none => none
  | some l =>
    (readPlain? l.inFlow (l.indent + 1).toNat l.cursor).map fun p =>
      { l with keyAllowed := p.brokenOff, cursor := p.next }.push (.scalar p.text .plain)

def fetchBlock? (l : Lexer) (literal : Bool) : Option Lexer :=
  match l.dropKey? with
  | none => none
  | some l =>
    (readBlock? literal l.indent l.cursor).map fun (text, c) =>
      { l with keyAllowed := true, cursor := c }.push (.scalar text .block)

/-- Whether a plain scalar may begin with `c`, given the character after it. -/
def opensPlain (flow : Bool) (c : Char) (next : Option Char) : Bool :=
  if c = '-' then !next.any isSpace
  else if c = '?' || c = ':' then !flow && !endsWord next
  else
    !(isBlankOrBreak c || [',', '[', ']', '\x7b', '\x7d', '#', '&', '*', '!', '|', '>', singleQuote,
      doubleQuote, '%', '@', backtick].elem c)

/-- The token that begins with `c`. -/
def fetch? (l : Lexer) (c : Char) : Option Lexer :=
  let next := l.cursor.at? 1
  let flow := l.inFlow
  if l.cursor.column = 0 && c == '%' then l.fetchDirective?
  else if l.cursor.atDocumentMark then
    l.fetchDocumentMark? (if c = '-' then .documentStart else .documentEnd)
  else if c = '[' then l.fetchOpen? .flowSequenceStart
  else if c = '\x7b' then l.fetchOpen? .flowMappingStart
  else if c = ']' then l.fetchClose? .flowSequenceEnd
  else if c = '\x7d' then l.fetchClose? .flowMappingEnd
  else if c = ',' then l.fetchFlowEntry?
  else if c = '-' && endsWord next then l.fetchBlockEntry?
  else if c = '?' && (flow || endsWord next) then l.fetchKey?
  else if c = ':' && (flow || endsWord next) then l.fetchValue?
  else if c = '*' then
    l.fetchWord? fun c => (readAnchor? c).map fun (name, c) => (.alias name, c)
  else if c = '&' then
    l.fetchWord? fun c => (readAnchor? c).map fun (name, c) => (.anchor name, c)
  else if c = '!' then l.fetchWord? fun c => (readTag? flow c).map fun (t, c) => (.tag t, c)
  else if c = '|' && !flow then l.fetchBlock? true
  else if c = '>' && !flow then l.fetchBlock? false
  else if isQuote c then
    l.fetchWord? fun cursor => (readQuoted? c cursor).map fun (t, next) => (.scalar t .quoted, next)
  else if opensPlain flow c next then l.fetchPlain?
  else none

/-- Reads one more token, with what indentation and keys put around it. -/
def step? (l : Lexer) : Option Lexer :=
  let l := skipBlanks (l.cursor.rest.length + 1) l
  if !l.cursor.sees 4 then none
  else
    match l.dropStale? with
    | none => none
    | some l =>
      let l := l.unroll l.cursor.column
      let l? := match l.cursor.head? with
        | none => l.fetchEnd?
        | some c => l.fetch? c
      l?.bind dropStale?

/-- The tokens that no key can be put before any more. -/
def settled (l : Lexer) : List Token :=
  let pending := (l.keys.filterMap id).map (·.token)
  l.tokens.toList.take (pending.foldl min l.tokens.size)

/-- Reads tokens up to the end of the text, or as far as the text is YAML. -/
def run : (fuel : Nat) → Lexer → List Token
  | 0, l => l.settled
  | fuel + 1, l =>
    match l.step? with
    | none => l.settled
    | some l => if l.tokens.back? == some .streamEnd then l.tokens.toList else run fuel l

end Lexer

/-- The tokens of a text; the last one is the end of the stream if all of it is made of tokens. -/
def tokens (s : Text) : List Token := Lexer.run (s.length + 1) (.start s)

end SpinnerMarkup.Yaml
