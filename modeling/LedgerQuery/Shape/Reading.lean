import LedgerQuery.Shape.Source

namespace LedgerQuery

inductive FaultKind
  | missing
  | modelType
  | stringType
  | stringUnicode
  | intType
  | intParsing
  | intParsingSize
  | intFromFloat
  | finiteNumber
  | boolType
  | boolParsing
  | floatType
  | floatParsing
  | greaterThanEqual
  | lessThanEqual
  | listType
  | dictType
  | valueError
deriving DecidableEq

def FaultKind.code : FaultKind → String
  | .missing => "missing"
  | .modelType => "model_type"
  | .stringType => "string_type"
  | .stringUnicode => "string_unicode"
  | .intType => "int_type"
  | .intParsing => "int_parsing"
  | .intParsingSize => "int_parsing_size"
  | .intFromFloat => "int_from_float"
  | .finiteNumber => "finite_number"
  | .boolType => "bool_type"
  | .boolParsing => "bool_parsing"
  | .floatType => "float_type"
  | .floatParsing => "float_parsing"
  | .greaterThanEqual => "greater_than_equal"
  | .lessThanEqual => "less_than_equal"
  | .listType => "list_type"
  | .dictType => "dict_type"
  | .valueError => "value_error"

structure Fault where
  place : List Place
  kind : FaultKind
deriving DecidableEq

/-- A value, or all the faults in the order of the fields and elements that have them. -/
abbrev Reading (α : Type) := Except (List Fault) α

namespace Reading

variable {α β : Type}

def fault (kind : FaultKind) : Reading α := .error [⟨[], kind⟩]

def under (p : Place) : Reading α → Reading α
  | .ok a => .ok a
  | .error fs => .error (fs.map fun f => ⟨p :: f.place, f.kind⟩)

/-- Applies a reading to a reading; the faults of both are kept. -/
def apply : Reading (α → β) → Reading α → Reading β
  | .ok f, .ok a => .ok (f a)
  | .ok _, .error fs => .error fs
  | .error fs, .ok _ => .error fs
  | .error fs, .error gs => .error (fs ++ gs)

def both (x : Reading α) (y : Reading β) : Reading (α × β) := apply (x.map Prod.mk) y

def all : List (Reading α) → Reading (List α)
  | [] => .ok []
  | x :: xs => apply (x.map List.cons) (all xs)

theorem apply_eq_ok {f : Reading (α → β)} {x : Reading α} {b : β} :
    apply f x = .ok b ↔ ∃ g a, f = .ok g ∧ x = .ok a ∧ g a = b := by
  cases f <;> cases x <;> simp [apply]

theorem under_eq_ok {p : Place} {x : Reading α} {a : α} : x.under p = .ok a ↔ x = .ok a := by
  cases x <;> simp [under]

theorem all_map_ok (f : α → β) (l : List α) : all (l.map fun a => .ok (f a)) = .ok (l.map f) := by
  induction l with
  | nil => rfl
  | cons a l ih => simp [all, ih, apply, Except.map]

end Reading

end LedgerQuery
