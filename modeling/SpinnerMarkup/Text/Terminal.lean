import SpinnerMarkup.Text.Basic

/-! What is shown of a text that may hold the control sequences of terminals.

A sequence begins with the escape character and is not shown, whether it is finished or not; nor are
control characters other than white space. White space inside an escape or control sequence is
carried out at once: what follows is shown up to the next control character, and behind that one the
sequence goes on. -/
namespace SpinnerMarkup.Text.Terminal

/-- How far into a control sequence a text is. -/
inductive Mode where
  /-- In no sequence. -/
  | ground
  /-- Behind the escape character. -/
  | escape
  /-- Behind an escape character and marks that a last character has to follow. -/
  | designation
  /-- In a control sequence, up to its last character. -/
  | control
  /-- At the start of a device control string. -/
  | device
  /-- In the parameters of a device control string. -/
  | deviceParameter
  /-- In the marks behind those parameters. -/
  | deviceMark
  /-- In a string that a terminator ends. -/
  | message
  /-- In a command to the system, which a bell ends. -/
  | command
  deriving Repr, DecidableEq

/-- Whether the number of a character lies between two others. -/
def between (low high : Nat) (c : Char) : Bool := inRanges [(low, high)] c

/-- White space that is carried out rather than shown: tab, line feed, form feed and return. -/
def isFormat (c : Char) : Bool := ['\t', '\n', '\x0c', '\r'].elem c

/-- Whether one of the bytes of a character is the terminator of a message. -/
def holdsTerminator (c : Char) : Bool := (String.utf8EncodeChar c).elem 0x9C

namespace Mode

/-- Whether white space is carried out inside a sequence. -/
def carriesOut : Mode → Bool
  | .ground | .escape | .designation | .control => true
  | _ => false

def shows (mode : Mode) (c : Char) : Bool :=
  if isFormat c then mode.carriesOut
  else mode == .ground && (!between 0x00 0x1F c && c != '\x7f')

/-- Behind the character after the escape character. -/
def afterEscape (c : Char) : Mode :=
  if between 0x20 0x2F c then .designation
  else if c = '[' then .control
  else if c = ']' then .command
  else if c = 'P' then .device
  else if c = 'X' || c = '^' || c = '_' then .message
  else if between 0x30 0x7E c then .ground
  else .escape

/-- Behind a character that is not shown. Two characters cancel every sequence. -/
def next (mode : Mode) (c : Char) : Mode :=
  if c = '\x1b' then .escape
  else if c = '\x18' || c = '\x1a' then .ground
  else
    match mode with
    | .ground => .ground
    | .escape => afterEscape c
    | .designation => if between 0x30 0x7E c then .ground else .designation
    | .control => if between 0x40 0x7E c then .ground else .control
    | .device =>
      if between 0x20 0x2F c then .deviceMark
      else if between 0x30 0x3F c then .deviceParameter
      else if between 0x40 0x7E c then .message
      else .device
    | .deviceParameter =>
      if between 0x20 0x2F c then .deviceMark
      else if between 0x3C 0x7E c then .message
      else .deviceParameter
    | .deviceMark => if between 0x30 0x7E c then .message else .deviceMark
    | .message => if holdsTerminator c then .ground else .message
    | .command => if c = '\x07' then .ground else .command

end Mode

/-- The sequence a text is in, and whether text is shown before it goes on. -/
structure State where
  mode : Mode
  showing : Bool
  deriving Repr, DecidableEq

namespace State

def shows (s : State) (c : Char) : Bool := (if s.showing then Mode.ground else s.mode).shows c

/-- Behind a character. A shown character other than those of ASCII ends the sequence. -/
def next (s : State) (c : Char) : State :=
  if s.shows c then ⟨if between 0x00 0x7F c then s.mode else .ground, true⟩
  else ⟨s.mode.next c, false⟩

/-- The characters of a text that are shown. -/
def shown (s : State) : Text → Text
  | [] => []
  | c :: t => if s.shows c then c :: (s.next c).shown t else (s.next c).shown t

end State

/-- What is shown of a text. -/
def shown (s : Text) : Text := State.shown ⟨.ground, false⟩ s

end SpinnerMarkup.Text.Terminal
