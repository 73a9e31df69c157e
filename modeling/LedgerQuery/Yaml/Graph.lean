import LedgerQuery.Yaml.Tag
import LedgerQuery.Yaml.Token

namespace LedgerQuery.Yaml

inductive Vertex
  | scalar (tag : Tag) (content : Content)
  | sequence (tag : Tag) (items : List Nat)
  | mapping (tag : Tag) (entries : List (Nat × Nat))

def Vertex.tag : Vertex → Tag
  | .scalar tag _ | .sequence tag _ | .mapping tag _ => tag

abbrev Graph := Array Vertex

namespace Graph

def tag (g : Graph) (i : Nat) : Tag := (g[i]?.map Vertex.tag).getD .other

def entries (g : Graph) (i : Nat) : List (Nat × Nat) :=
  match g[i]? with
  | some (.mapping _ es) => es
  | _ => []

def isMapping (g : Graph) (i : Nat) : Bool := g[i]? matches some (.mapping _ _)

def setEntries (g : Graph) (i : Nat) (es : List (Nat × Nat)) : Graph :=
  match g[i]? with
  | some (.mapping tag _) => g.setIfInBounds i (.mapping tag es)
  | _ => g

def retag (g : Graph) (i : Nat) : Graph :=
  match g[i]? with
  | some (.scalar .value content) => g.setIfInBounds i (.scalar .str content)
  | some (.sequence .value items) => g.setIfInBounds i (.sequence .str items)
  | some (.mapping .value es) => g.setIfInBounds i (.mapping .str es)
  | _ => g

end Graph

end LedgerQuery.Yaml
