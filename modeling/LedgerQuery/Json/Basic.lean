import LedgerQuery.Number.Basic

namespace LedgerQuery

universe u

def lookup? {α : Type u} (key : String) : List (String × α) → Option α
  | [] => none
  | (k, x) :: rest => if k = key then some x else lookup? key rest

/-- Sets the value under a key: in its place if the key is there, and else at the end. -/
def insert {α : Type u} (key : String) (x : α) : List (String × α) → List (String × α)
  | [] => [(key, x)]
  | (k, y) :: rest => if k = key then (k, x) :: rest else (k, y) :: insert key x rest

section

variable {α : Type u}

@[simp]
theorem lookup?_nil (key : String) : lookup? key ([] : List (String × α)) = none := rfl

theorem lookup?_cons (key k : String) (x : α) (rest : List (String × α)) :
    lookup? key ((k, x) :: rest) = if k = key then some x else lookup? key rest := rfl

theorem lookup?_insert_self (key : String) (x : α) (l : List (String × α)) :
    lookup? key (insert key x l) = some x := by
  induction l with
  | nil => simp [insert, lookup?]
  | cons e rest ih =>
    obtain ⟨k, y⟩ := e
    by_cases h : k = key <;> simp [insert, lookup?, h, ih]

theorem lookup?_insert_of_ne {key other : String} (h : other ≠ key) (x : α)
    (l : List (String × α)) : lookup? other (insert key x l) = lookup? other l := by
  induction l with
  | nil => simp [insert, lookup?, Ne.symm h]
  | cons e rest ih =>
    obtain ⟨k, y⟩ := e
    by_cases hk : k = key
    · simp [insert, lookup?, hk, Ne.symm h]
    · by_cases ho : k = other <;> simp [insert, lookup?, hk, h, ho, ih]

end

inductive Json
  | null
  | bool (b : Bool)
  | number (n : Number)
  | string (s : String)
  | array (xs : List Json)
  | object (members : List (String × Json))
deriving Inhabited

namespace Json

def get? (key : String) : Json → Option Json
  | .object members => lookup? key members
  | _ => none

end Json

end LedgerQuery
