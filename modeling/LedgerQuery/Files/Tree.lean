import LedgerQuery.Files.Error
import LedgerQuery.Files.Path
import LedgerQuery.Json.Basic

namespace LedgerQuery

inductive FileTree
  | file (content : List UInt8)
  | directory (entries : List (String × FileTree))

/-- The files below a folder; paths that begin elsewhere lead to none. -/
structure Files where
  start : String
  tree : FileTree

namespace FileTree

def put (x : FileTree) : List String → FileTree → FileTree
  | [], _ => x
  | name :: names, t =>
    let entries := match t with
      | .directory entries => entries
      | .file _ => []
    .directory (insert name (put x names ((lookup? name entries).getD (.directory []))) entries)

def makeDirectory : List String → FileTree → FileTree
  | [], .directory entries => .directory entries
  | [], .file _ => .directory []
  | name :: names, t =>
    let entries := match t with
      | .directory entries => entries
      | .file _ => []
    .directory
      (insert name (makeDirectory names ((lookup? name entries).getD (.directory []))) entries)

/-- Follows names from a place, given with the places above it, the nearest first. Above the topmost
one nothing is known but that it is a directory. -/
def follow (path : String) : List FileTree → List String → Except FileError FileTree
  | [], [] => .ok (.directory [])
  | [], name :: names => if name = ".." then follow path [] names else .error (.notFound path)
  | t :: _, [] => .ok t
  | .file _ :: _, _ :: _ => .error (.notDirectory path)
  | .directory entries :: up, name :: names =>
    if name = ".." then follow path up names
    else
      match lookup? name entries with
      | some t => follow path (t :: .directory entries :: up) names
      | none => .error (.notFound path)

end FileTree

namespace Files

def find (fs : Files) (p : Path) : Except FileError FileTree :=
  FileTree.follow p.text (if p.start = fs.start then [fs.tree] else []) p.names

def contains (fs : Files) (p : Path) : Bool := (fs.find p) matches .ok _

def read (fs : Files) (p : Path) : Except FileError (List UInt8) := do
  match ← fs.find p with
  | .file content => return content
  | .directory _ => throw (.isDirectory p.text)

end Files

end LedgerQuery
