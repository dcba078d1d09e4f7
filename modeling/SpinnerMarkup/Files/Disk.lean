import SpinnerMarkup.Files.Node
import SpinnerMarkup.Store.Batch

/-! A tree of files with a working directory, read and written by paths.

A path is followed name by name; a link stands for the path it holds, seen from the directory it is
in. Everything but the last name has to be a directory, and so has the last one when something, be
it a slash, follows it. -/
namespace SpinnerMarkup

/-- A tree and the place in it that relative paths are taken from. -/
structure Disk where
  top : Node
  here : List Text
  deriving Repr

namespace Disk

/-- The longest name, in bytes. -/
def maxName : Nat := 255

/-- The longest path, in bytes. -/
def maxPath : Nat := 4095

/-- The number of links that one path may lead through. -/
def maxLinks : Nat := 40

/-- Follows names from a place in a tree. `follow` goes on where a link leads. -/
def walk (top : Node) (follow : List Text → List Text → Except Fault (List Text))
    (place : List Text) : List Text → Except Fault (List Text)
  | [] => .ok place
  | name :: names =>
    match top.get? place with
    | some (.dir entries) =>
      if Path.isEmptyPiece name then walk top follow place names
      else if name = ['.', '.'] then walk top follow place.dropLast names
      else if maxName < Text.byteLength name then .error .nameTooLong
      else
        match entries.lookup name with
        | none => .error .notFound
        | some (.link target) =>
          let path : Path := ⟨target⟩
          follow (if path.isAbsolute then [] else place) (path.pieces ++ names)
        | some _ => walk top follow (place ++ [name]) names
    | _ => .error .notADirectory

/-- Follows names through at most `links` links. -/
def locate (top : Node) : (links : Nat) → List Text → List Text → Except Fault (List Text)
  | 0 => walk top fun _ _ => .error .tooManyLinks
  | links + 1 => walk top (locate top links)

/-- The place a path leads to. -/
def resolve (d : Disk) (p : Path) : Except Fault (List Text) :=
  if p.text.elem '\x00' then .error .nullInPath
  else if p.text.isEmpty then .error .notFound
  else if maxPath < Text.byteLength p.text then .error .nameTooLong
  else locate d.top maxLinks (if p.isAbsolute then [] else d.here) p.pieces

/-- The text of the file a path leads to. -/
def read (d : Disk) (p : Path) : Except Fault Text :=
  match d.resolve p with
  | .error fault => .error fault
  | .ok place =>
    match d.top.get? place with
    | some (.file (.text t)) => .ok t
    | some (.file (.raw _)) => .error .notText
    | some (.dir _) => .error .isADirectory
    | _ => .error .notFound

/-- The disk after the text of the file a path leads to was replaced. -/
def write (d : Disk) (p : Path) (t : Text) : Except Fault Disk :=
  match d.resolve p with
  | .error fault => .error fault
  | .ok place =>
    match d.top.get? place with
    | some (.file _) => .ok { d with top := Node.insert (.file (.text t)) place d.top }
    | some (.dir _) => .error .isADirectory
    | _ => .error .notFound

/-- The entries of the directory a path leads to. -/
def directory? (d : Disk) (p : Path) : Option (List (Text × Node)) :=
  match d.resolve p with
  | .error _ => none
  | .ok place =>
    match d.top.get? place with
    | some (.dir entries) => some entries
    | _ => none

def store : Store (StateM Disk) where
  read p := fun d => (d.read p, d)
  write p t := fun d =>
    match d.write p t with
    | .ok d' => (.ok (), d')
    | .error fault => (.error fault, d)

end Disk
end SpinnerMarkup
