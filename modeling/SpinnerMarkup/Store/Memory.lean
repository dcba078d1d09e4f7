import SpinnerMarkup.Store.Batch

/-! Texts kept in memory under the texts of their paths, with a record of every access.

Some keys may be locked: a locked text can be read but not replaced. Failed accesses are recorded
too. -/
namespace SpinnerMarkup

inductive Access where
  | read (key : Text)
  | write (key : Text)
  deriving Repr, DecidableEq

/-- Texts by key, in the order of their keys' first use. -/
structure Memory where
  files : List (Text × Text)
  locked : List Text
  /-- The accesses so far, the first in front. -/
  log : List Access
  deriving Repr, DecidableEq

namespace Memory

def empty : Memory := ⟨[], [], []⟩

def get? (s : Memory) (key : Text) : Option Text := s.files.lookup key

def put (s : Memory) (key text : Text) : Memory :=
  if s.files.any (·.1 == key) then
    { s with files := s.files.map fun f => if f.1 == key then (key, text) else f }
  else
    { s with files := s.files ++ [(key, text)] }

def remove (s : Memory) (key : Text) : Memory :=
  { s with files := s.files.filter (·.1 != key) }

def lock (s : Memory) (key : Text) : Memory := { s with locked := key :: s.locked }

def unlock (s : Memory) (key : Text) : Memory := { s with locked := s.locked.filter (· != key) }

/-- Forgets the accesses so far. -/
def clearLog (s : Memory) : Memory := { s with log := [] }

def note (s : Memory) (a : Access) : Memory := { s with log := s.log ++ [a] }

/-- A key that holds nothing. -/
def missing : Fault := .other "not found".toList

/-- A key that is locked. -/
def readOnly : Fault := .other "read only".toList

def read (path : Path) : StateM Memory (Except Fault Text) := fun s =>
  let result := match s.get? path.text with
    | some text => .ok text
    | none => .error missing
  (result, s.note (.read path.text))

def write (path : Path) (text : Text) : StateM Memory (Except Fault Unit) := fun s =>
  let s := s.note (.write path.text)
  if s.locked.elem path.text then (.error readOnly, s) else (.ok (), s.put path.text text)

def store : Store (StateM Memory) := ⟨read, write⟩

end Memory
end SpinnerMarkup
