import LedgerQuery.Settings.Override
import LedgerQuery.Proofs.Document.Update

namespace LedgerQuery

abbrev Assignments := List (List String × String)

namespace Naming

def assignments (n : Naming) (env : Environment) : Assignments :=
  env.filterMap fun var => (n.path? var.1).map fun path => (path, var.2)

theorem pieces_ne_nil (mark piece cs : List Char) : pieces mark piece cs ≠ [] := by
  fun_induction pieces mark piece cs with
  | case1 => exact List.cons_ne_nil _ _
  | case2 => exact List.cons_ne_nil _ _
  | case3 _ _ _ _ ih => exact ih

theorem path?_ne_nil {n : Naming} {name : String} {path : List String} (h : n.path? name = some path) :
    path ≠ [] := by
  obtain ⟨suffix, -, rfl⟩ := Option.map_eq_some_iff.mp h
  rw [tokens, ne_eq, List.map_eq_nil_iff, List.map_eq_nil_iff]
  exact pieces_ne_nil _ _ _

theorem path_ne_nil_of_mem {n : Naming} {env : Environment} {var : List String × String}
    (h : var ∈ n.assignments env) : var.1 ≠ [] := by
  obtain ⟨_, -, hvar⟩ := List.mem_filterMap.mp h
  obtain ⟨path, hpath, rfl⟩ := Option.map_eq_some_iff.mp hvar
  exact path?_ne_nil hpath

end Naming

/-- The paths of the variables are neither equal nor one the beginning of another. -/
def Unambiguous (vars : Assignments) : Prop := vars.Pairwise fun v w => Document.Apart v.1 w.1

instance (vars : Assignments) : Decidable (Unambiguous vars) :=
  inferInstanceAs (Decidable (vars.Pairwise fun v w => Document.Apart v.1 w.1))

namespace Entries

def overlay (table : Array Node) (vars : Assignments) (es : Entries) : Entries :=
  vars.foldl (fun es var => (set table (.leaf (.text var.2)) var.1 es).1) es

end Entries

namespace Document

variable {table : Array Node} {vars : Assignments} {es : Entries} {path : List String} {n : Node}

theorem set_eq {d : Document} (hes : (Node.map es).Tree) (hroot : d.root = .map es) {x : Node} (hx : x.Tree)
    (path : List String) : d.set x path = ⟨.map (Entries.set d.table x path es).1, d.table⟩ :=
  set_of_stays hroot (Entries.tree_set d.table hes hx path).2

theorem override_eq (naming : Naming) (env : Environment) {d : Document} (hes : (Node.map es).Tree)
    (hroot : d.root = .map es) :
    d.override naming env = ⟨.map (Entries.overlay d.table (naming.assignments env) es), d.table⟩ := by
  induction env generalizing d es with
  | nil =>
      obtain ⟨root, table⟩ := d
      cases hroot
      rfl
  | cons var env ih =>
      rw [override, List.foldl_cons, ← override, applyVariable, Naming.assignments, List.filterMap_cons]
      cases naming.path? var.1 with
      | none => exact ih hes hroot
      | some path =>
          have hx := Node.Tree.leaf (.text var.2)
          simp only [Option.map_some]
          rw [set_eq hes hroot hx]
          exact ih (Entries.tree_set d.table hes hx path).1 rfl

theorem tree_overlay (hes : (Node.map es).Tree) : (Node.map (es.overlay table vars)).Tree := by
  induction vars generalizing es with
  | nil => exact hes
  | cons var vars ih => exact ih (Entries.tree_set table hes (.leaf _) var.1).1

theorem nodeAt?_overlay_of_apart (hes : (Node.map es).Tree) (h : ∀ v ∈ vars, Apart v.1 path) :
    nodeAt? table path (.map (es.overlay table vars)) = nodeAt? table path (.map es) := by
  induction vars generalizing es with
  | nil => rfl
  | cons var vars ih =>
      obtain ⟨hvar, hvars⟩ := List.forall_mem_cons.mp h
      have hrest := ih (Entries.tree_set table hes (.leaf (.text var.2)) var.1).1 hvars
      exact hrest.trans (nodeAt?_set_of_apart (Entries.inline_of_tree hes hvar.ne_nil.1) hvar)

theorem nodeAt?_overlay_of_mem (hes : (Node.map es).Tree) (unambiguous : Unambiguous vars)
    {text : String} (h : (path, text) ∈ vars) (hpath : path ≠ []) :
    nodeAt? table path (.map (es.overlay table vars)) = some (.leaf (.text text)) := by
  induction vars generalizing es with
  | nil => cases h
  | cons var vars ih =>
      obtain ⟨hvar, hvars⟩ := List.pairwise_cons.mp unambiguous
      have htree := (Entries.tree_set table hes (.leaf (.text var.2)) var.1).1
      obtain rfl | hmem := List.mem_cons.mp h
      -- The variables that come after it set other places.
      · refine (nodeAt?_overlay_of_apart htree fun v hv => (hvar v hv).symm).trans ?_
        exact nodeAt?_set_self (Entries.inline_of_tree hes hpath)
      · exact ih htree hvars hmem

theorem keys_overlay {P : Scalar → Prop} (htext : ∀ s, P (.text s)) (hes : (Node.map es).Tree)
    (hkeys : ∀ fs, nodeAt? table path (.map es) = some (.map fs) → ∀ k ∈ fs.map (·.1), P k) {gs : Entries}
    (h : nodeAt? table path (.map (es.overlay table vars)) = some (.map gs)) : ∀ k ∈ gs.map (·.1), P k := by
  induction vars generalizing es with
  | nil => exact hkeys gs h
  | cons var vars ih =>
      exact ih (Entries.tree_set table hes (.leaf _) var.1).1 (fun fs => keys_set htext hes hkeys) h

end Document

end LedgerQuery
