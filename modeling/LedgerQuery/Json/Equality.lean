import LedgerQuery.Json.Basic

namespace LedgerQuery.Json

def sameKeys (ms ns : List (String × Json)) : Bool :=
  ms.all (fun m => (lookup? m.1 ns).isSome) && ns.all (fun n => (lookup? n.1 ms).isSome)

mutual

def same : Json → Json → Bool
  | .null, .null => true
  | .bool a, .bool b => a == b
  | .number a, .number b => a.same b
  | .string a, .string b => a == b
  | .array xs, .array ys => sameElements xs ys
  | .object ms, .object ns => sameKeys ms ns && sameMembers ms ns
  | _, _ => false

def sameElements : List Json → List Json → Bool
  | [], [] => true
  | x :: xs, y :: ys => same x y && sameElements xs ys
  | _, _ => false

/-- Whether each member's value equals the one under its key on the other side. -/
def sameMembers : List (String × Json) → List (String × Json) → Bool
  | [], _ => true
  | (k, x) :: ms, ns =>
    (match lookup? k ns with
      | some y => same x y
      | none => false) && sameMembers ms ns

end

end LedgerQuery.Json
