import LedgerQuery.Conformance.Violation

namespace LedgerQuery

abbrev Checked (α : Type) := Except Violation α

namespace Checked

variable {α β : Type}

def present (what : String) : Option α → Checked α
  | none => .error (.absent what)
  | some a => .ok a

def ensure (p : Prop) [Decidable p] (v : Violation) : Checked Unit :=
  if p then .ok () else .error v

theorem ensure_eq_ok {p : Prop} [Decidable p] {v : Violation} {u : Unit} :
    ensure p v = .ok u ↔ p := by
  by_cases h : p <;> simp [ensure, h]

def distinct (check : α → Checked β) (same : β → β → Bool) (repeated : β → Violation) :
    List β → List α → Checked (List β)
  | seen, [] => .ok seen
  | seen, x :: xs => do
    let b ← check x
    if seen.any (same · b) then .error (repeated b)
    else distinct check same repeated (seen ++ [b]) xs

end Checked

end LedgerQuery
