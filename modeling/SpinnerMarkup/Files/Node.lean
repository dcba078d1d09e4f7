import SpinnerMarkup.Text.Basic

/-! Trees of files, links and directories.

A place in a tree is the list of names that lead to it from the top. -/
namespace SpinnerMarkup

/-- What a file holds: a text, or bytes that are none. -/
inductive Contents where
  | text (t : Text)
  | raw (bytes : List UInt8)
  deriving Repr, DecidableEq

def Contents.ofBytes (bytes : ByteArray) : Contents :=
  match String.fromUTF8? bytes with
  | some s => .text s.toList
  | none => .raw bytes.toList

inductive Node where
  | file (contents : Contents)
  | link (target : Text)
  | dir (entries : List (Text × Node))
  deriving Repr

namespace Node

/-- Puts a node under a name. -/
def setEntry (name : Text) (node : Node) : List (Text × Node) → List (Text × Node)
  | [] => [(name, node)]
  | e :: es => if name == e.1 then (name, node) :: es else e :: setEntry name node es

def get? : List Text → Node → Option Node
  | [], node => some node
  | name :: names, .dir entries => (entries.lookup name).bind (get? names)
  | _ :: _, _ => none

/-- Puts a node at a place and makes the directories that lead to it. -/
def insert (leaf : Node) : List Text → Node → Node
  | [], _ => leaf
  | name :: names, .dir entries =>
    .dir (setEntry name (insert leaf names ((entries.lookup name).getD (.dir []))) entries)
  | name :: names, _ => .dir [(name, insert leaf names (.dir []))]

mutual

/-- The files and links below a node, each with the names that lead to it. -/
def leaves : Node → List (List Text × Node)
  | .file contents => [([], .file contents)]
  | .link target => [([], .link target)]
  | .dir entries => entryLeaves entries

def entryLeaves : List (Text × Node) → List (List Text × Node)
  | [] => []
  | (name, node) :: entries =>
    ((leaves node).map fun leaf => (name :: leaf.1, leaf.2)) ++ entryLeaves entries

end

end Node
end SpinnerMarkup
