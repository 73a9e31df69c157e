import LedgerQuery.Document.Basic
import LedgerQuery.Yaml.Grammar
import LedgerQuery.Yaml.Merge
import LedgerQuery.Yaml.Scalar

namespace LedgerQuery.Yaml

inductive Part
  | scalar (s : Scalar)
  | collection (i : Nat)
  | pair (a b : Part)

inductive Collection
  | list (items : List Part)
  | map (entries : List (Scalar × Part))
deriving Inhabited

structure Making where
  graph : Graph
  /-- The collections that were met and are still to be made. -/
  queue : List Nat
  met : List Nat
  made : List (Nat × Collection)

abbrev Maker := StateT Making (Except Error)

namespace Maker

/-- The text of a scalar, or of the value of the first key in a mapping that is tagged as such. -/
def contentOf (g : Graph) : Nat → Nat → Except Error Content
  | 0, _ => .error .construction
  | fuel + 1, i =>
    match g[i]? with
    | some (.scalar _ content) => .ok content
    | some (.mapping _ es) =>
      match es.find? fun e => g.tag e.1 = .value with
      | some e => contentOf g fuel e.2
      | none => .error .construction
    | _ => .error .construction

def part (i : Nat) : Maker Part := do
  let m ← get
  let tag := m.graph.tag i
  if tag.isCollection then
    if i ∉ m.met then set { m with queue := m.queue ++ [i], met := i :: m.met }
    return .collection i
  else if tag ∈ [.merge, .value, .other] then throw .construction
  else
    let content ← contentOf m.graph (m.graph.size + 1) i
    return .scalar (← scalarOf tag content)

def items (i : Nat) : Maker (List Nat) := do
  match (← get).graph[i]? with
  | some (.sequence _ items) => return items
  | _ => throw .construction

def single (i : Nat) : Maker (Nat × Nat) := do
  match (← get).graph[i]? with
  | some (.mapping _ [e]) => return e
  | _ => throw .construction

def putEntry (key : Scalar) (x : Part) : List (Scalar × Part) → List (Scalar × Part)
  | [] => [(key, x)]
  | (k, y) :: rest => if k.sameKey key then (k, x) :: rest else (k, y) :: putEntry key x rest

/-- The entries of a mapping, merged ones among them. Only scalars can be keys, and of two entries under
one key the later gives the value. -/
def entries (i : Nat) : Maker (List (Scalar × Part)) := do
  if !(← get).graph.isMapping i then throw .construction
  let g ← (← get).graph.flatten i
  modify fun m => { m with graph := g }
  (g.entries i).foldlM (fun made e => do
    match ← part e.1 with
    | .scalar key => return putEntry key (← part e.2) made
    | _ => throw .construction) []

def make (i : Nat) : Maker Collection := do
  match (← get).graph.tag i with
  | .seq => return .list (← (← items i).mapM part)
  | .omap | .pairs =>
    return .list (← (← items i).mapM fun j => do
      let e ← single j
      return .pair (← part e.1) (← part e.2))
  | .set => return .list ((← entries i).map fun e => .scalar e.1)
  | _ => return .map (← entries i)

/-- Makes what is in the queue, and what gets there meanwhile; no collection gets there twice. -/
def makeAll : Nat → Maker Unit
  | 0 => return
  | fuel + 1 => do
    match (← get).queue with
    | [] => return
    | i :: queue =>
      modify fun m => { m with queue }
      let c ← make i
      modify fun m => { m with made := (i, c) :: m.made }
      makeAll fuel

def whole (root : Nat) : Maker Part := do
  let part ← part root
  makeAll ((← get).graph.size + 1)
  return part

end Maker

def Part.collections : Part → List Nat
  | .scalar _ => []
  | .collection i => [i]
  | .pair a b => a.collections ++ b.collections

def Collection.parts : Collection → List Part
  | .list items => items
  | .map entries => entries.map (·.2)

/-- The collections that are in two places or more, counting the root as a place. -/
def repeated (root : Part) (made : List (Nat × Collection)) : List Nat :=
  let places := root.collections ++ made.flatMap fun (_, c) => c.parts.flatMap Part.collections
  (made.map (·.1)).filter fun i => 2 ≤ places.count i

section

variable (made : List (Nat × Collection)) (shared : List Nat)

mutual

/-- The tree of a part; what is in several places stays behind in the table. -/
def nodeOf : Nat → Part → Node
  | 0, _ => .leaf .null
  | _ + 1, .scalar s => .leaf s
  | fuel + 1, .pair a b => .list [nodeOf fuel a, nodeOf fuel b]
  | fuel + 1, .collection i =>
    match shared.idxOf? i with
    | some index => .shared index
    | none => nodeOfCollection fuel i

def nodeOfCollection : Nat → Nat → Node
  | 0, _ => .leaf .null
  | fuel + 1, i =>
    match made.lookup i with
    | some (.list items) => .list (items.map (nodeOf fuel))
    | some (.map entries) => .map (entries.map fun (k, x) => (k, nodeOf fuel x))
    | none => .leaf .null

end

end

def documentOf (root : Part) (made : List (Nat × Collection)) : Document :=
  let shared := repeated root made
  let depth := 3 * made.length + 3
  ⟨nodeOf made shared depth root, (shared.map (nodeOfCollection made shared depth)).toArray⟩

/-- The document in a text; an empty stream has null for it. -/
def read (text : List Char) : Except Error Document := do
  match ← graphOf text with
  | (none, _) => return .ofNode (.leaf .null)
  | (some root, g) =>
    let (part, m) ← (Maker.whole root).run ⟨g, [], [], []⟩
    return documentOf part m.made

end LedgerQuery.Yaml
