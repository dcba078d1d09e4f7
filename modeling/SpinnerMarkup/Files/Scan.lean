import SpinnerMarkup.Error
import SpinnerMarkup.Files.Node

/-! Looking for files below a directory.

The walk goes depth first through the entries of each directory in the order of their names. It
follows no link and enters no directory whose name says that nobody edits what it holds. The start
itself may have such a name. -/
namespace SpinnerMarkup

namespace Node

/-- The names of directories that are not entered. -/
def skippedNames : List Text :=
  ["node_modules".toList, ".git".toList, ".next".toList, "dist".toList, "build".toList]

/-- The order of names by their characters' numbers, which is the order of their bytes. -/
def nameLe : Text → Text → Bool
  | [], _ => true
  | _ :: _, [] => false
  | a :: s, b :: t => a.toNat < b.toNat || (a = b && nameLe s t)

/-- Puts a named value before the first one whose name does not come earlier. -/
def insertByName {α : Type} (e : Text × α) : List (Text × α) → List (Text × α)
  | [] => [e]
  | f :: fs => if nameLe e.1 f.1 then e :: f :: fs else f :: insertByName e fs

def sortByName {α : Type} (entries : List (Text × α)) : List (Text × α) :=
  entries.foldr insertByName []

/-- Whether an entry is a directory that is not entered. -/
def isSkipped (name : Text) : Node → Bool
  | .dir _ => skippedNames.elem name
  | _ => false

mutual

/-- The places of the files below a node, in the order of the walk. -/
def filesBelow : Node → List (List Text)
  | .file _ => [[]]
  | .link _ => []
  | .dir entries =>
    (sortByName (entryFiles entries)).flatMap fun e => e.2.map (e.1 :: ·)

/-- Each entry's name with the places of the files below it. -/
def entryFiles : List (Text × Node) → List (Text × List (List Text))
  | [] => []
  | (name, node) :: entries =>
    (name, if isSkipped name node then [] else filesBelow node) :: entryFiles entries

end

end Node

/-- Whether the last name of a place has one of the extensions. -/
def hasExtension (extensions : List Text) (place : List Text) : Bool :=
  (place.getLast?.bind Path.extensionOf?).any extensions.elem

/-- The path of a place below a directory. -/
def Path.descend (start : Path) (place : List Text) : Path :=
  place.foldl (fun p name => p.join ⟨name⟩) start

/-- The files with one of the extensions below the directory `dir`, taken from `root`, whose
entries are given if it is a directory. A path below `root` is told from there. -/
def scanFiles (root dir : Path) (extensions : List Text) (entries? : Option (List (Text × Node))) :
    Except Failure (List Path) :=
  let start := root.join dir
  match entries? with
  | none => .error (.scanNotFound start)
  | some entries =>
    let places := ((Node.dir entries).filesBelow).filter (hasExtension extensions)
    .ok (places.map fun place =>
      let walked := start.descend place
      (walked.from? root).getD walked)

end SpinnerMarkup
