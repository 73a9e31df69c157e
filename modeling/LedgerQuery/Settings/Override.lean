import LedgerQuery.Document.Update
import LedgerQuery.Text.LowerCase

namespace LedgerQuery

/-- The variables in the order of the environment, each name once. -/
abbrev Environment := List (String × String)

def pieces (mark : List Char) (piece : List Char) : List Char → List (List Char)
  | [] => [piece.reverse]
  | c :: cs =>
    if mark.isPrefixOf (c :: cs) then piece.reverse :: pieces mark [] (cs.drop (mark.length - 1))
    else pieces mark (c :: piece) cs
termination_by cs => cs.length
decreasing_by
  · simp only [List.length_drop, List.length_cons]; omega
  · simp

def after? : List Char → List Char → Option (List Char)
  | [], cs => some cs
  | w :: ws, c :: cs => if w = c then after? ws cs else none
  | _ :: _, [] => none

structure Naming where
  lead : String
  delimiter : String

namespace Naming

def usual (lead : String) : Naming := ⟨lead, "__"⟩

def suffix? (n : Naming) (name : String) : Option (List Char) :=
  after? (n.lead ++ n.delimiter).toList name.toList

def tokens (n : Naming) (suffix : List Char) : List String :=
  (pieces n.delimiter.toList [] suffix).map String.ofList

def path? (n : Naming) (name : String) : Option (List String) :=
  (n.suffix? name).map fun suffix => (n.tokens suffix).map Text.lower

end Naming

namespace Document

def applyVariable (n : Naming) (d : Document) (var : String × String) : Document :=
  match n.path? var.1 with
  | some path => d.set (.leaf (.text var.2)) path
  | none => d

def override (n : Naming) (env : Environment) (d : Document) : Document :=
  env.foldl (applyVariable n) d

/-- Applies the variables, if those that tell a path can be read and there is a mapping to change. -/
def override? (n : Naming) (env : Environment) (d : Document) : Except UpdateError Document :=
  if env.all fun var => (n.suffix? var.1).isNone then .ok d
  else if n.delimiter = "" then .error .emptyDelimiter
  else if d.entries?.isNone then .error .notMapping
  else .ok (d.override n env)

end Document

end LedgerQuery
