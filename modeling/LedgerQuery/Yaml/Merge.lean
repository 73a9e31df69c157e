import LedgerQuery.Yaml.Error
import LedgerQuery.Yaml.Graph

namespace LedgerQuery.Yaml.Graph

def takeMerge? (g : Graph) : List (Nat × Nat) → Option (Nat × List (Nat × Nat))
  | [] => none
  | (k, v) :: rest =>
    if g.tag k = .merge then some (v, rest)
    else (takeMerge? g rest).map fun (v', rest') => (v', (k, v) :: rest')

/-- Puts merged entries in front, and lets keys that are tagged as values be texts. -/
def finishMerge (i : Nat) (merged : List (Nat × Nat)) (g : Graph) : Graph :=
  let es := g.entries i
  es.foldl (fun g e => g.retag e.1) (g.setEntries i (merged ++ es))

/-- Replaces the merge keys of a mapping by the entries they stand for, after those already `merged`.
Every round takes a merge key away, so `fuel` is enough if it exceeds their number. -/
def flattenFrom : Nat → Nat → List (Nat × Nat) → Graph → Except Error Graph
  | 0, _, _, _ => .error .construction
  | fuel + 1, i, merged, g =>
    match g.takeMerge? (g.entries i) with
    | none => .ok (g.finishMerge i merged)
    | some (v, rest) => do
      let g := g.setEntries i rest
      let (g, more) ← match g[v]? with
        | some (.mapping _ _) => do
          let g ← flattenFrom fuel v [] g
          pure (g, g.entries v)
        | some (.sequence _ items) => do
          let (g, groups) ← items.foldlM (fun (g, groups) j => do
            if g.isMapping j then
              let g ← flattenFrom fuel j [] g
              pure (g, g.entries j :: groups)
            else throw .construction) (g, [])
          pure (g, groups.flatten)
        | _ => throw .construction
      flattenFrom fuel i (merged ++ more) g

def entryCount (g : Graph) : Nat :=
  g.foldl (fun n v =>
    match v with
    | .mapping _ es => n + es.length
    | _ => n) 0

def flatten (i : Nat) (g : Graph) : Except Error Graph := flattenFrom (g.entryCount + 2) i [] g

end LedgerQuery.Yaml.Graph
