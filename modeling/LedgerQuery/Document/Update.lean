import LedgerQuery.Document.Basic

namespace LedgerQuery

/-- What remains to be done of an update, at a node of the table. -/
structure Detour where
  index : Nat
  path : List String

def isSharedMap (table : Array Node) (i : Nat) : Bool := table[i]? matches some (.map _)

namespace Entries

def below (key : String) (es : Entries) : Entries :=
  match es.get? (.text key) with
  | some (.map inner) => inner
  | _ => []

def detour? (table : Array Node) (key : String) (es : Entries) : Option Nat :=
  match es.get? (.text key) with
  | some (.shared i) => if isSharedMap table i then some i else none
  | _ => none

def set (table : Array Node) (x : Node) : List String → Entries → Entries × Option Detour
  | [], es => (es, none)
  | [key], es => (es.put (.text key) x, none)
  | key :: path, es =>
    match es.detour? table key with
    | some i => (es, some ⟨i, path⟩)
    | none =>
      let (inner, rest) := set table x path (es.below key)
      (es.put (.text key) (.map inner), rest)

theorem detour_length {table : Array Node} {x : Node} {path : List String} {es : Entries} {d : Detour}
    (h : (set table x path es).2 = some d) : d.path.length < path.length := by
  fun_induction set table x path es with
  | case1 => simp at h
  | case2 => simp at h
  | case3 => simp at h; subst h; simp
  | case4 _ _ _ _ _ _ _ hs ih => simp_all; omega

end Entries

namespace Document

def sharedEntries (table : Array Node) (i : Nat) : Entries :=
  match table[i]? with
  | some (.map es) => es
  | _ => []

def setShared (x : Node) (table : Array Node) (d : Detour) : Array Node :=
  let step := Entries.set table x d.path (sharedEntries table d.index)
  let table' := table.setIfInBounds d.index (.map step.1)
  match _h : step.2 with
  | none => table'
  | some d' => setShared x table' d'
termination_by d.path.length
decreasing_by exact Entries.detour_length _h

/-- Sets the value at a path. Where a key on the way leads into no mapping, an empty one is put there; a way that enters
a node of the table goes on there, and so changes it for every place that refers to it. A document without a mapping
at the root stays as it is. -/
def set (x : Node) (path : List String) (d : Document) : Document :=
  match d.root with
  | .map es =>
    match Entries.set d.table x path es with
    | (es, none) => ⟨.map es, d.table⟩
    | (es, some detour) => ⟨.map es, setShared x d.table detour⟩
  | .shared i => if isSharedMap d.table i then ⟨d.root, setShared x d.table ⟨i, path⟩⟩ else d
  | _ => d

end Document

inductive UpdateError
  | emptyPath
  | notMapping
  | emptyDelimiter
deriving DecidableEq

namespace UpdateError

def label : UpdateError → String
  | emptyPath => "IndexError"
  | notMapping => "TypeError"
  | emptyDelimiter => "ValueError"

def message : UpdateError → String
  | emptyDelimiter => "empty separator"
  | emptyPath | notMapping => ""

end UpdateError

def Document.set? (x : Node) (path : List String) (d : Document) : Except UpdateError Document :=
  if path = [] then .error .emptyPath
  else if d.entries?.isNone then .error .notMapping
  else .ok (d.set x path)

end LedgerQuery
