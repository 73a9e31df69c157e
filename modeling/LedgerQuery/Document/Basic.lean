import LedgerQuery.Document.Scalar

namespace LedgerQuery

inductive Node
  | leaf (s : Scalar)
  | list (items : List Node)
  | map (entries : List (Scalar × Node))
  /-- The node at an index of the table. -/
  | shared (index : Nat)
deriving Inhabited

abbrev Entries := List (Scalar × Node)

/-- A tree, but for the lists and mappings that it holds in several places: these are kept once, in a table beside the
tree, and each of the places refers to them there. -/
structure Document where
  root : Node
  table : Array Node

namespace Node

mutual

def ofJson : Json → Node
  | .null => .leaf .null
  | .bool b => .leaf (.bool b)
  | .number n => .leaf (.number n)
  | .string s => .leaf (.text s)
  | .array xs => .list (ofElements xs)
  | .object ms => .map (ofMembers ms)

def ofElements : List Json → List Node
  | [] => []
  | x :: xs => ofJson x :: ofElements xs

def ofMembers : List (String × Json) → Entries
  | [] => []
  | (k, x) :: ms => (.text k, ofJson x) :: ofMembers ms

end

end Node

namespace Entries

def get? (key : Scalar) : Entries → Option Node
  | [] => none
  | (k, x) :: rest => if k.sameKey key then some x else get? key rest

/-- Sets the value under a key: in its place if the key is there, and else at the end. -/
def put (key : Scalar) (x : Node) : Entries → Entries
  | [] => [(key, x)]
  | (k, y) :: rest => if k.sameKey key then (k, x) :: rest else (k, y) :: put key x rest

theorem get?_put_self (key : Scalar) (x : Node) (es : Entries) :
    get? key (put key x es) = some x := by
  induction es with
  | nil => simp [put, get?, Scalar.sameKey_self]
  | cons e rest ih =>
    obtain ⟨k, y⟩ := e
    by_cases h : k.sameKey key = true <;> simp [put, get?, h, ih]

theorem get?_put_of_ne {key other : Scalar} (h : key.sameKey other = false) (x : Node)
    (es : Entries) : get? other (put key x es) = get? other es := by
  induction es with
  | nil => simp [put, get?, h]
  | cons e rest ih =>
    obtain ⟨k, y⟩ := e
    by_cases hk : k.sameKey key = true
    · have ho : k.sameKey other = false := by
        rw [Scalar.sameKey_iff] at hk
        simpa [Scalar.sameKey, hk] using h
      simp [put, get?, hk, ho]
    · simp [put, get?, hk, ih]

end Entries

namespace Document

def ofNode (root : Node) : Document := ⟨root, #[]⟩

def resolve (table : Array Node) : Node → Node
  | .shared i => table.getD i (.leaf .null)
  | n => n

def nodeAt? (table : Array Node) : List String → Node → Option Node
  | [], n => some n
  | key :: path, n =>
    match resolve table n with
    | .map es => (Entries.get? (.text key) es).bind (nodeAt? table path)
    | _ => none

def get? (path : List String) (d : Document) : Option Node := nodeAt? d.table path d.root

def isVoid (d : Document) : Bool :=
  match resolve d.table d.root with
  | .leaf s => s.isVoid
  | .list items => items.isEmpty
  | .map entries => entries.isEmpty
  | .shared _ => false

def entries? (d : Document) : Option Entries :=
  match resolve d.table d.root with
  | .map entries => some entries
  | _ => none

structure View where
  table : Array Node
  node : Node

def view (d : Document) : View := ⟨d.table, d.root⟩

def View.layer (v : View) : Layer View :=
  match resolve v.table v.node with
  | .leaf s => s.layer
  | .list items => .list (items.map (View.mk v.table))
  | .map entries => .map (entries.map fun (k, x) => (k.mapKey, ⟨v.table, x⟩))
  | .shared _ => .null

instance : Source View := ⟨View.layer, fun _ => none⟩

end Document

end LedgerQuery
