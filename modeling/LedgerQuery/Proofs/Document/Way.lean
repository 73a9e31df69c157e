import LedgerQuery.Proofs.Document.Sharing

namespace LedgerQuery

/-- The keys lead from the first node to the second, through mappings outside of the table. -/
inductive Node.Way : List String → Node → Node → Prop
  | here (n : Node) : Way [] n n
  | under {key : String} {path : List String} {es : Entries} {m n : Node} (found : es.get? (.text key) = some m)
      (way : Way path m n) : Way (key :: path) (.map es) n

inductive Node.Replaced (x : Node) : List String → Node → Node → Prop
  | here (n : Node) : Replaced x [] n x
  | under {key : String} {path : List String} {es : Entries} {m m' : Node} (found : es.get? (.text key) = some m)
      (inside : Replaced x path m m') : Replaced x (key :: path) (.map es) (.map (es.put (.text key) m'))

namespace Document

def nodeKeys? (table : Array Node) (path : List String) (n : Node) : Option (List Scalar) :=
  match (nodeAt? table path n).map (resolve table) with
  | some (.map es) => some (es.map (·.1))
  | _ => none

def keysAt? (path : List String) (d : Document) : Option (List Scalar) := nodeKeys? d.table path d.root

end Document

namespace Scalar

theorem addKey_of_sameKey {key k : Scalar} {keys : List Scalar} (h : k.sameKey key = true) (hk : k ∈ keys) :
    addKey key keys = keys := by
  induction keys with
  | nil => cases hk
  | cons l rest ih =>
      rw [addKey]
      split
      · rfl
      · rename_i hl
        obtain rfl | hk := List.mem_cons.mp hk
        · exact absurd h hl
        · rw [ih hk]

theorem addKey_of_new {key : Scalar} {keys : List Scalar} (h : ∀ k ∈ keys, k.sameKey key = false) :
    addKey key keys = keys ++ [key] := by
  induction keys with
  | nil => rfl
  | cons l rest ih =>
      obtain ⟨hl, hrest⟩ := List.forall_mem_cons.mp h
      rw [addKey, hl, ih hrest]
      rfl

end Scalar

section

open Document

variable {table : Array Node} {x y n n' m l : Node} {es fs : Entries} {path rest other : List String}

theorem Entries.map_fst_put_of_found {key : Scalar} (found : es.get? key = some m) (x : Node) :
    (es.put key x).map (·.1) = es.map (·.1) := by
  obtain ⟨k, hk, hmem⟩ := mem_of_get? found
  rw [map_fst_put, Scalar.addKey_of_sameKey hk (List.mem_map_of_mem hmem)]

theorem Entries.get?_of_new {key : Scalar} (h : ∀ k ∈ es.map (·.1), k.sameKey key = false) : es.get? key = none := by
  cases hfound : es.get? key with
  | none => rfl
  | some x =>
      obtain ⟨k, hk, hmem⟩ := mem_of_get? hfound
      rw [h k (List.mem_map_of_mem hmem)] at hk
      cases hk

namespace Node.Way

theorem exists_map (h : Way path n (.map fs)) : ∃ es, n = .map es := by
  cases h with
  | here => exact ⟨fs, rfl⟩
  | under _ _ => exact ⟨_, rfl⟩

theorem exists_of_cons {key : String} (h : Way (key :: path) n m) :
    ∃ (es : Entries) (l : Node), n = .map es ∧ es.get? (.text key) = some l ∧ Way path l m := by
  cases h with
  | under found way => exact ⟨_, _, rfl, found, way⟩

theorem split (h : Way (path ++ rest) n l) : ∃ m, Way path n m ∧ Way rest m l := by
  induction path generalizing n with
  | nil => exact ⟨n, .here n, h⟩
  | cons key path ih =>
      cases h with
      | under found way =>
          obtain ⟨m, hpath, hrest⟩ := ih way
          exact ⟨m, .under found hpath, hrest⟩

theorem nodeAt?_append (h : Way path n m) (table : Array Node) (rest : List String) :
    nodeAt? table (path ++ rest) n = nodeAt? table rest m := by
  induction h with
  | here n => rfl
  | under found _ ih =>
      rw [List.cons_append, nodeAt?_map, found]
      exact ih

end Node.Way

namespace Document

theorem nodeKeys?_map (es : Entries) : nodeKeys? table [] (.map es) = some (es.map (·.1)) := rfl

theorem nodeKeys?_leaf (path : List String) (s : Scalar) : nodeKeys? table path (.leaf s) = none := by
  cases path <;> rfl

theorem nodeKeys?_congr (h : nodeAt? table path n = nodeAt? table other m) :
    nodeKeys? table path n = nodeKeys? table other m := by
  rw [nodeKeys?, nodeKeys?, h]

end Document

namespace Node.Replaced

theorem append (h : Replaced y path n n') (way : Way path n m) (inner : Replaced x rest m y) :
    Replaced x (path ++ rest) n n' := by
  induction h with
  | here n =>
      cases way
      exact inner
  | under found _ ih =>
      cases way with
      | under found' way =>
          cases found.symm.trans found'
          exact .under found (ih way)

theorem nodeAt?_append (h : Replaced x path n n') (table : Array Node) (rest : List String) :
    nodeAt? table (path ++ rest) n' = nodeAt? table rest x := by
  induction h with
  | here n => rfl
  | under _ _ ih => exact (nodeAt?_put_self _ _).trans ih

theorem nodeAt?_of_apart (h : Replaced x path n n') (apart : Apart path other) :
    nodeAt? table other n' = nodeAt? table other n := by
  induction h generalizing other with
  | here n => exact absurd rfl apart.ne_nil.1
  | @under key path es m m' found _ ih =>
      cases other with
      | nil => exact absurd rfl apart.ne_nil.2
      | cons k other =>
          by_cases hk : key = k
          · subst hk
            rw [nodeAt?_put_self, ih apart.tail, nodeAt?_map, found]
            rfl
          · exact nodeAt?_put_of_ne hk other

theorem nodeKeys?_of_not_prefix (h : Replaced x path n n') (hother : ¬path <+: other) :
    nodeKeys? table other n' = nodeKeys? table other n := by
  induction h generalizing other with
  | here n => exact absurd List.nil_prefix hother
  | @under key path es m m' found _ ih =>
      cases other with
      | nil => exact congrArg some (Entries.map_fst_put_of_found found m')
      | cons k other =>
          by_cases hk : key = k
          · subst hk
            rw [nodeKeys?_congr (nodeAt?_put_self key other), ih fun hprefix => hother ?_]
            · refine nodeKeys?_congr ?_
              rw [nodeAt?_map, found]
              rfl
            · exact List.cons_prefix_cons.mpr ⟨rfl, hprefix⟩
          · exact nodeKeys?_congr (nodeAt?_put_of_ne hk other)

end Node.Replaced

namespace Entries

theorem set_along (table : Array Node) (x : Node) (way : Node.Way path (.map es) (.map fs)) (hrest : rest ≠ []) :
    (set table x (path ++ rest) es).2 = (set table x rest fs).2 ∧
      Node.Replaced (.map (set table x rest fs).1) path (.map es) (.map (set table x (path ++ rest) es).1) := by
  induction path generalizing es with
  | nil =>
      cases way
      exact ⟨rfl, .here _⟩
  | cons key path ih =>
      cases way with
      | under found way =>
          obtain ⟨inner, rfl⟩ := way.exists_map
          have hdetour : es.detour? table key = none := by rw [detour?, found]
          have hbelow : es.below key = inner := by rw [below, found]
          obtain ⟨next, tail, hnext⟩ : ∃ next tail, path ++ rest = next :: tail :=
            List.exists_cons_of_ne_nil (List.append_ne_nil_of_right_ne_nil _ hrest)
          obtain ⟨hdone, hreplaced⟩ := ih way
          rw [hnext] at hdone hreplaced
          rw [List.cons_append, hnext, set_of_way hdetour, hbelow]
          exact ⟨hdone, .under found hreplaced⟩

theorem set_new {key : String} (h : es.get? (.text key) = none) (table : Array Node) (hx : x.Tree)
    (rest : List String) :
    ∃ y, set table x (key :: rest) es = (es.put (.text key) y, none) := by
  cases rest with
  | nil => exact ⟨x, rfl⟩
  | cons next rest =>
      have hdetour : es.detour? table key = none := by rw [detour?, h]
      have hbelow : es.below key = [] := by rw [below, h]
      have hempty : (Node.map []).Tree := .map .nil (List.forall_mem_nil _)
      rw [set_of_way hdetour, hbelow, (tree_set table hempty hx (next :: rest)).2]
      exact ⟨_, rfl⟩

end Entries

theorem Document.set_along {d : Document} (way : d.root.Way path (.map fs)) (hrest : rest ≠ [])
    (stays : (Entries.set d.table x rest fs).2 = none) : ∃ root, d.set x (path ++ rest) = ⟨root, d.table⟩ ∧
      Node.Replaced (.map (Entries.set d.table x rest fs).1) path d.root root := by
  obtain ⟨es, hroot⟩ := way.exists_map
  rw [hroot] at way
  obtain ⟨hdone, hreplaced⟩ := Entries.set_along d.table x way hrest
  exact ⟨_, set_of_stays hroot (hdone.trans stays), hroot ▸ hreplaced⟩

end

end LedgerQuery
