import SpinnerMarkup.Yaml.Cursor

/-! Reading YAML scalars: plain, quoted and block.

In plain and quoted scalars a single line end between words is a space, and of several the first is
dropped. Each reader gives the value and the place behind it, or fails. Loops count down from the
length of the text ahead: every round reads something. -/
namespace SpinnerMarkup.Yaml

open Text

/-! ### Between words -/

/-- What stands between two words: spaces within a line, or a line end and those after it. -/
structure Gap where
  spaces : Text
  /-- The first line end, if there is one; an escaped line end is one that reads as nothing. -/
  first : Option Text
  /-- The line ends after the first. -/
  more : Text
  deriving Repr, DecidableEq

namespace Gap

def empty : Gap := ⟨[], none, []⟩

def render (g : Gap) : Text :=
  match g.first with
  | none => g.spaces
  | some first =>
    if first = ['\n'] then
      if g.more.isEmpty then [' '] else g.more
    else first ++ g.more

/-- Reads a gap. After a line end, a tab left of column `indent` is a failure. -/
def read? (indent : Nat) : (fuel : Nat) → Gap → Cursor → Option (Gap × Cursor)
  | 0, g, c => some (g, c)
  | fuel + 1, g, c =>
    match c.head? with
    | none => some (g, c)
    | some d =>
      if isSpace d then
        if g.first.isSome && (c.column < indent && d == '\t') then none
        else
          let g := if g.first.isNone then { g with spaces := g.spaces ++ [d] } else g
          read? indent fuel g (c.skip 1)
      else if isBreak d then
        let (text, next) := c.readBreak
        let g := if g.first.isNone then ⟨[], some text, []⟩ else { g with more := g.more ++ text }
        read? indent fuel g next
      else some (g, c)

end Gap

/-! ### Plain scalars -/

/-- The characters that end a plain scalar inside brackets. -/
def isFlowMark (c : Char) : Bool := [',', '[', ']', '\x7b', '\x7d'].elem c

/-- One word of a plain scalar. Inside brackets a colon right before a mark is a failure. -/
def plainWord? (flow : Bool) : Text → Option Text
  | [] => some []
  | c :: s =>
    if isBlankOrBreak c then some []
    else if flow && (c == ':' && s.head?.any fun d => isFlowMark d || d == '?') then none
    else if (c == ':' && endsWord s.head?) || (flow && isFlowMark c) then some []
    else (plainWord? flow s).map (c :: ·)

/-- A plain scalar that was read, and whether a line end follows it. -/
structure Plain where
  text : Text
  next : Cursor
  brokenOff : Bool

/-- The words of a plain scalar from a place on; `gap` stands before that place. -/
def plainWords? (flow : Bool) (indent : Nat) :
    (fuel : Nat) → Text → Gap → Cursor → Option Plain
  | 0, _, _, _ => none
  | fuel + 1, text, gap, c =>
    let stop := some ⟨text, c, gap.first.isSome⟩
    if !c.sees 4 then none
    else if c.atDocumentMark || c.head? == some '#' then stop
    else
      match plainWord? flow c.rest with
      | none => none
      | some [] => stop
      | some word =>
        let text := text ++ gap.render ++ word
        let c := c.skip word.length
        if !c.sees 2 then none
        else if c.head?.any isBlankOrBreak then
          match Gap.read? indent c.rest.length .empty c with
          | none => none
          | some (gap, c) =>
            if !c.sees 1 then none
            else if !flow && c.column < indent then some ⟨text, c, gap.first.isSome⟩
            else plainWords? flow indent fuel text gap c
        else some ⟨text, c, false⟩

/-- A plain scalar. Outside brackets its lines stand at column `indent` or right of it. -/
def readPlain? (flow : Bool) (indent : Nat) (c : Cursor) : Option Plain :=
  plainWords? flow indent (c.rest.length + 1) [] .empty c

/-! ### Quoted scalars -/

/-- The character that a letter stands for after a backslash. -/
def escaped? (c : Char) : Option Char :=
  [('0', '\x00'), ('a', '\x07'), ('b', '\x08'), ('t', '\t'), ('\t', '\t'), ('n', '\n'),
   ('v', '\x0b'), ('f', '\x0c'), ('r', '\r'), ('e', '\x1b'), (' ', ' '), (doubleQuote, doubleQuote),
   ('/', '/'), ('\\', '\\'), ('N', '\u0085'), ('_', '\u00a0'), ('L', '\u2028'),
   ('P', '\u2029')].lookup c

/-- The number of digits that a letter asks for after a backslash. -/
def escapedDigits? (c : Char) : Option Nat := [('x', 2), ('u', 4), ('U', 8)].lookup c

/-- The character with a number, if there is one. -/
def charOf? (n : Nat) : Option Char := if n.isValidChar then some (Char.ofNat n) else none

/-- A word of a quoted scalar: its value, the number of characters read, and whether it ends at an
escaped line end. -/
structure QuotedWord where
  value : Text
  length : Nat
  escapedBreak : Bool

namespace QuotedWord

def stop : QuotedWord := ⟨[], 0, false⟩

/-- A word with one more character in front, written with `n` characters. -/
def cons (d : Char) (n : Nat) (w : QuotedWord) : QuotedWord :=
  { w with value := d :: w.value, length := w.length + n }

/-- A word between single marks; a mark written twice is one. -/
def single : (fuel : Nat) → Text → QuotedWord
  | 0, _ => stop
  | _, [] => stop
  | fuel + 1, c :: s =>
    if c = singleQuote then
      if s.head? = some singleQuote then (single fuel (s.drop 1)).cons c 2 else stop
    else if isBlankOrBreak c then stop
    else (single fuel s).cons c 1

/-- A word between double marks. -/
def double? : (fuel : Nat) → Text → Option QuotedWord
  | 0, _ => some stop
  | _, [] => some stop
  | fuel + 1, c :: s =>
    if c = doubleQuote || isBlankOrBreak c then some stop
    else if c = '\\' then
      match s with
      | [] => none
      | d :: t =>
        if isBreak d then some { stop with length := 1, escapedBreak := true }
        else
          match escaped? d, escapedDigits? d with
          | some e, _ => (double? fuel t).map (cons e 2)
          | none, some n =>
            if (t.take n).length = n then
              match (hexNumber? (t.take n)).bind charOf? with
              | some e => (double? fuel (t.drop n)).map (cons e (n + 2))
              | none => none
            else none
          | none, none => none
    else (double? fuel s).map (cons c 1)

end QuotedWord

/-- The words of a quoted scalar up to its closing mark. -/
def quotedWords? (mark : Char) : (fuel : Nat) → Text → Cursor → Option (Text × Cursor)
  | 0, _, _ => none
  | fuel + 1, text, c =>
    if !c.sees 4 || (c.atDocumentMark || c.rest.isEmpty) then none
    else
      let word? := if mark = singleQuote then some (QuotedWord.single c.rest.length c.rest)
        else QuotedWord.double? c.rest.length c.rest
      match word? with
      | none => none
      | some word =>
        let text := text ++ word.value
        let c := c.skip word.length
        let c := if word.escapedBreak then c.skipBreak else c
        if c.head? == some mark then
          if word.escapedBreak || (c.skip 1).sees 1 then some (text, c.skip 1) else none
        else
          let gap : Gap := if word.escapedBreak then ⟨[], some [], []⟩ else .empty
          match Gap.read? 0 c.rest.length gap c with
          | none => none
          | some (gap, c) => quotedWords? mark fuel (text ++ gap.render) c

/-- A quoted scalar, from its opening mark on. -/
def readQuoted? (mark : Char) (c : Cursor) : Option (Text × Cursor) :=
  quotedWords? mark (c.rest.length + 1) [] (c.skip 1)

/-! ### Block scalars -/

/-- What becomes of the line ends behind a block scalar. -/
inductive Chomping where
  /-- All are dropped. -/
  | strip
  /-- One is kept. -/
  | clip
  /-- All are kept. -/
  | keep
  deriving Repr, DecidableEq

def Chomping.ofMark? (c : Char) : Option Chomping :=
  if c = '+' then some .keep else if c = '-' then some .strip else none

/-- The chomping and the indentation that follow the mark of a block scalar, in either order. -/
def blockHeader? (c : Cursor) : Option (Chomping × Nat × Cursor) :=
  let digit? (c : Cursor) : Option (Nat × Cursor) :=
    match c.head? with
    | some d =>
      if isDigit d then if d = '0' then none else some (d.toNat - 48, c.skip 1) else some (0, c)
    | none => some (0, c)
  match c.head?.bind Chomping.ofMark? with
  | some chomping => (digit? (c.skip 1)).map fun (n, c) => (chomping, n, c)
  | none =>
    match digit? c with
    | none => none
    | some (0, c) => some (.clip, 0, c)
    | some (n, c) =>
      match c.head?.bind Chomping.ofMark? with
      | some chomping => some (chomping, n, c.skip 1)
      | none => some (.clip, n, c)

/-- Reads indentation and empty lines: the line ends, and the largest column seen. While the
indentation is unknown (zero) every space belongs to it; a tab in the indentation is a failure. -/
def blockBreaks? (indent : Nat) :
    (fuel : Nat) → Text → (widest : Nat) → Cursor → Option (Text × Nat × Cursor)
  | 0, _, _, _ => none
  | fuel + 1, breaks, widest, c =>
    let room := if indent = 0 then c.rest.length else indent - c.column
    let c := c.skip (((c.rest.take room).takeWhile (· == ' ')).length)
    let widest := max widest c.column
    if (indent == 0 || c.column < indent) && c.head? == some '\t' then none
    else if c.head?.any isBreak then
      let (text, next) := c.readBreak
      blockBreaks? indent fuel (breaks ++ text) widest next
    else some (breaks, widest, c)

/-- A block scalar as far as it was read: the text, the last line end and those after it. -/
structure Block where
  text : Text
  lastBreak : Text
  moreBreaks : Text
  next : Cursor

/-- Reads the lines of a block scalar. `blankBefore` says that the line before begins with a
blank; a folded scalar joins two lines only if neither does. -/
def blockLines? (literal : Bool) (indent : Nat) :
    (fuel : Nat) → (blankBefore : Bool) → Block → Option Block
  | 0, _, _ => none
  | fuel + 1, blankBefore, b =>
    let c := b.next
    if c.column = indent && !c.rest.isEmpty then
      let blank := c.head?.any isSpace
      let folds := !literal && (b.lastBreak == ['\n'] && (!blankBefore && !blank))
      let joint := if folds then if b.moreBreaks.isEmpty then [' '] else [] else b.lastBreak
      let (line, c) := c.span (!isBreak ·)
      let (lastBreak, c) := c.readBreak
      match blockBreaks? indent (c.rest.length + 1) [] 0 c with
      | none => none
      | some (moreBreaks, _, next) =>
        blockLines? literal indent fuel blank
          ⟨b.text ++ joint ++ b.moreBreaks ++ line, lastBreak, moreBreaks, next⟩
    else some b

/-- A block scalar, from its mark on; `parent` is the indentation of what holds it. -/
def readBlock? (literal : Bool) (parent : Int) (c : Cursor) : Option (Text × Cursor) :=
  match blockHeader? (c.skip 1) with
  | none => none
  | some (chomping, increment, c) =>
    match c.finishLine? with
    | none => none
    | some c =>
      let given := if increment = 0 then 0 else ((max parent 0) + increment).toNat
      match blockBreaks? given (c.rest.length + 1) [] 0 c with
      | none => none
      | some (breaks, widest, c) =>
        let indent := if given = 0 then max (max widest (parent + 1).toNat) 1 else given
        match blockLines? literal indent (c.rest.length + 1) false ⟨[], [], breaks, c⟩ with
        | none => none
        | some b =>
          let text := match chomping with
            | .strip => b.text
            | .clip => b.text ++ b.lastBreak
            | .keep => b.text ++ b.lastBreak ++ b.moreBreaks
          if b.next.sees 1 then some (text, b.next) else none

end SpinnerMarkup.Yaml
