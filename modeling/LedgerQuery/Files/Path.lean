namespace LedgerQuery

structure Path where
  start : String
  names : List String
deriving DecidableEq

namespace Path

/-- The names in a text; empty ones and single points say nothing. -/
def namesOf (text : String) : List String :=
  ((text.splitOn "/").filter fun name => name ≠ "" ∧ name ≠ ".")

def text (p : Path) : String :=
  if p.start = "/" then "/" ++ "/".intercalate p.names else "/".intercalate (p.start :: p.names)

def hasNul (p : Path) : Bool := p.text.toList.contains '\x00'

/-- Goes on from a path; a text that is absolute itself does not. -/
def join (p : Path) (text : String) : Path :=
  if text.startsWith "/" then ⟨"/", namesOf text⟩ else ⟨p.start, p.names ++ namesOf text⟩

def parent (p : Path) : Path := ⟨p.start, p.names.dropLast⟩

def ancestors (p : Path) : List Path := go p.names.reverse
where
  go : List String → List Path
    | [] => [⟨p.start, []⟩]
    | name :: up => ⟨p.start, (name :: up).reverse⟩ :: go up

end Path

end LedgerQuery
