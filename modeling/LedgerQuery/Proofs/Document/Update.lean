import LedgerQuery.Document.Update
import Mathlib.Data.List.Basic

namespace LedgerQuery

namespace Scalar

def Distinct (keys : List Scalar) : Prop := keys.Pairwise fun k l => k.sameKey l = false

def addKey (key : Scalar) : List Scalar → List Scalar
  | [] => [key]
  | k :: rest => if k.sameKey key then k :: rest else k :: addKey key rest

end Scalar

/-- A node with nothing shared in it, and without a mapping that has a key twice. -/
inductive Node.Tree : Node → Prop
  | leaf (s : Scalar) : Tree (.leaf s)
  | list {items : List Node} (inside : ∀ n ∈ items, Tree n) : Tree (.list items)
  | map {entries : Entries} (distinct : Scalar.Distinct (entries.map (·.1))) (inside : ∀ e ∈ entries, Tree e.2) :
      Tree (.map entries)

/-- A document that refers to nothing beside its tree. -/
structure Document.Plain (d : Document) : Prop where
  table : d.table = #[]
  tree : d.root.Tree

namespace Scalar

theorem sameKey_text_right {k : Scalar} {s : String} : k.sameKey (.text s) = true ↔ k = .text s := by
  rw [sameKey_iff]
  cases k <;> simp [identity]

theorem mem_addKey {key k : Scalar} {keys : List Scalar} (h : k ∈ addKey key keys) : k = key ∨ k ∈ keys := by
  induction keys with
  | nil => exact .inl (List.mem_singleton.mp h)
  | cons l rest ih =>
      rw [addKey] at h
      split at h
      · exact .inr h
      · obtain rfl | h := List.mem_cons.mp h
        · exact .inr (List.mem_cons_self ..)
        · exact (ih h).imp_right (List.mem_cons_of_mem _)

theorem distinct_addKey {keys : List Scalar} (h : Distinct keys) (key : Scalar) : Distinct (addKey key keys) := by
  induction keys with
  | nil => exact List.pairwise_singleton _ _
  | cons l rest ih =>
      obtain ⟨hl, hrest⟩ := List.pairwise_cons.mp h
      rw [addKey]
      split
      · exact h
      · rename_i hkey
        refine List.pairwise_cons.mpr ⟨fun k hk => ?_, ih hrest⟩
        obtain rfl | hk := mem_addKey hk
        · rwa [Bool.not_eq_true] at hkey
        · exact hl k hk

end Scalar

namespace Entries

variable {key : Scalar} {x y : Node} {es : Entries}

theorem mem_of_get? (h : get? key es = some x) : ∃ k, k.sameKey key = true ∧ (k, x) ∈ es := by
  induction es with
  | nil => cases h
  | cons e rest ih =>
      obtain ⟨k, y⟩ := e
      by_cases hk : k.sameKey key = true
      · simp only [get?, hk, if_true, Option.some.injEq] at h
        exact ⟨k, hk, by simp [h]⟩
      · simp only [get?, hk, if_false, Bool.false_eq_true] at h
        obtain ⟨l, hl, hmem⟩ := ih h
        exact ⟨l, hl, List.mem_cons_of_mem _ hmem⟩

theorem text_mem_of_get? {name : String} (h : get? (.text name) es = some x) : (.text name, x) ∈ es := by
  obtain ⟨k, hk, hmem⟩ := mem_of_get? h
  rwa [Scalar.sameKey_text_right.mp hk] at hmem

theorem get?_of_mem (distinct : Scalar.Distinct (es.map (·.1))) (h : (key, x) ∈ es) : get? key es = some x := by
  induction es with
  | nil => cases h
  | cons e rest ih =>
      obtain ⟨k, y⟩ := e
      obtain ⟨hk, hrest⟩ := List.pairwise_cons.mp distinct
      obtain heq | hmem := List.mem_cons.mp h
      · cases heq
        simp [get?, Scalar.sameKey_self]
      · rw [get?, hk key (List.mem_map.mpr ⟨_, hmem, rfl⟩)]
        exact ih hrest hmem

theorem map_fst_put (key : Scalar) (x : Node) (es : Entries) :
    (put key x es).map (·.1) = Scalar.addKey key (es.map (·.1)) := by
  induction es with
  | nil => rfl
  | cons e rest ih =>
      rw [put, List.map_cons, Scalar.addKey]
      split
      · rfl
      · rw [List.map_cons, ih]

theorem mem_put {e : Scalar × Node} (h : e ∈ put key x es) : e.2 = x ∨ e ∈ es := by
  induction es with
  | nil =>
      rw [List.mem_singleton.mp h]
      exact .inl rfl
  | cons d rest ih =>
      rw [put] at h
      split at h
      · obtain rfl | h := List.mem_cons.mp h
        · exact .inl rfl
        · exact .inr (List.mem_cons_of_mem _ h)
      · obtain rfl | h := List.mem_cons.mp h
        · exact .inr (List.mem_cons_self ..)
        · exact (ih h).imp_right (List.mem_cons_of_mem _)

theorem tree_put (hes : (Node.map es).Tree) (hx : x.Tree) : (Node.map (put key x es)).Tree := by
  cases hes with
  | map distinct inside =>
      refine .map (map_fst_put key x es ▸ Scalar.distinct_addKey distinct key) fun e he => ?_
      obtain heq | hmem := mem_put he
      · rwa [heq]
      · exact inside e hmem

theorem tree_get? (hes : (Node.map es).Tree) (h : get? key es = some x) : x.Tree := by
  cases hes with
  | map distinct inside =>
      obtain ⟨_, -, hmem⟩ := mem_of_get? h
      exact inside _ hmem

theorem tree_below (hes : (Node.map es).Tree) (name : String) : (Node.map (es.below name)).Tree := by
  rw [below]
  split
  · exact tree_get? hes (by assumption)
  · exact .map .nil (List.forall_mem_nil _)

theorem detour?_of_inline {name : String} (h : ∀ i, es.get? (.text name) ≠ some (.shared i)) (table : Array Node) :
    es.detour? table name = none := by
  rw [detour?]
  split
  · rename_i i hi
    exact absurd hi (h i)
  · rfl

/-- Up to its last key a way through the entries enters no node of a table. -/
inductive Inline : List String → Entries → Prop
  | last (name : String) (es : Entries) : Inline [name] es
  | under {name next : String} {path : List String} {es : Entries} (inline : ∀ i, es.get? (.text name) ≠ some (.shared i))
      (below : Inline (next :: path) (es.below name)) : Inline (name :: next :: path) es

theorem inline_get? (hes : (Node.map es).Tree) (name : String) (i : Nat) : es.get? (.text name) ≠ some (.shared i) := by
  intro hi
  cases tree_get? hes hi

theorem inline_of_tree (hes : (Node.map es).Tree) {path : List String} (hpath : path ≠ []) : Inline path es := by
  induction path generalizing es with
  | nil => exact absurd rfl hpath
  | cons name path ih =>
      cases path with
      | nil => exact .last name es
      | cons next path => exact .under (inline_get? hes name) (ih (tree_below hes name) (List.cons_ne_nil _ _))

end Entries

namespace Document

variable {table : Array Node} {n x : Node} {es : Entries}

theorem resolve_of_tree (h : n.Tree) : resolve table n = n := by
  cases h <;> rfl

theorem nodeAt?_append (path rest : List String) (n : Node) :
    nodeAt? table (path ++ rest) n = (nodeAt? table path n).bind (nodeAt? table rest) := by
  induction path generalizing n with
  | nil => rfl
  | cons key path ih =>
      rw [List.cons_append, nodeAt?, nodeAt?]
      cases hn : resolve table n with
      | map es => cases hes : Entries.get? (.text key) es with
        | none => simp [hes]
        | some m => simp [hes, ih m]
      | _ => rfl

theorem nodeAt?_map (key : String) (path : List String) (es : Entries) :
    nodeAt? table (key :: path) (.map es) = (es.get? (.text key)).bind (nodeAt? table path) := rfl

theorem nodeAt?_leaf {path : List String} (h : path ≠ []) (s : Scalar) :
    nodeAt? table path (.leaf s) = none := by
  cases path with
  | nil => exact absurd rfl h
  | cons key path => rfl

theorem tree_nodeAt? {path : List String} (hn : n.Tree) (h : nodeAt? table path n = some x) : x.Tree := by
  induction path generalizing n with
  | nil =>
      cases h
      exact hn
  | cons key path ih =>
      rw [nodeAt?, resolve_of_tree hn] at h
      split at h
      · obtain ⟨m, hm, hx⟩ := Option.bind_eq_some_iff.mp h
        exact ih (Entries.tree_get? hn hm) hx
      · cases h

theorem nodeAt?_below {key : String} (h : ∀ i, es.get? (.text key) ≠ some (.shared i)) {path : List String}
    (hpath : path ≠ []) :
    nodeAt? table path (.map (es.below key)) = (es.get? (.text key)).bind (nodeAt? table path) := by
  obtain ⟨k, rest, rfl⟩ := List.exists_cons_of_ne_nil hpath
  rw [Entries.below]
  cases hm : es.get? (.text key) with
  | none => rfl
  | some m =>
      cases m with
      | shared i => exact absurd hm (h i)
      | _ => rfl

end Document

namespace Entries

variable {table : Array Node} {x : Node} {es : Entries}

theorem set_last (key : String) : set table x [key] es = (es.put (.text key) x, none) := rfl

theorem set_step {key : String} (h : ∀ i, es.get? (.text key) ≠ some (.shared i)) (next : String) (path : List String) :
    set table x (key :: next :: path) es =
      (es.put (.text key) (.map (set table x (next :: path) (es.below key)).1),
        (set table x (next :: path) (es.below key)).2) := by
  rw [set, detour?_of_inline h]
  nofun

theorem Inline.stays {path : List String} (h : Inline path es) (table : Array Node) (x : Node) :
    (set table x path es).2 = none := by
  induction h with
  | last name es => rfl
  | under inline _ ih => rw [set_step inline, ih]

theorem tree_set (table : Array Node) (hes : (Node.map es).Tree) (hx : x.Tree) (path : List String) :
    (Node.map (set table x path es).1).Tree ∧ (set table x path es).2 = none := by
  induction path generalizing es with
  | nil => exact ⟨hes, rfl⟩
  | cons key path ih =>
      cases path with
      | nil => exact ⟨tree_put hes hx, rfl⟩
      | cons next path =>
          rw [set_step (inline_get? hes key)]
          obtain ⟨htree, hrest⟩ := ih (tree_below hes key)
          exact ⟨tree_put hes htree, hrest⟩

end Entries

namespace Document

variable {table : Array Node} {x : Node} {es : Entries} {path other : List String}

theorem set_of_stays {d : Document} (hroot : d.root = .map es) (h : (Entries.set d.table x path es).2 = none) :
    d.set x path = ⟨.map (Entries.set d.table x path es).1, d.table⟩ := by
  simp only [set, hroot]
  generalize Entries.set d.table x path es = step at h ⊢
  obtain ⟨fs, rest⟩ := step
  cases h
  rfl

theorem nodeAt?_put_self (key : String) (other : List String) :
    nodeAt? table (key :: other) (.map (es.put (.text key) x)) = nodeAt? table other x := by
  rw [nodeAt?_map, Entries.get?_put_self]
  rfl

theorem nodeAt?_put_of_ne {key k : String} (h : key ≠ k) (other : List String) :
    nodeAt? table (k :: other) (.map (es.put (.text key) x)) = nodeAt? table (k :: other) (.map es) := by
  have hkey : (Scalar.text key).sameKey (.text k) = false := by
    rw [← Bool.not_eq_true, Scalar.sameKey_text]
    exact h
  rw [nodeAt?_map, nodeAt?_map, Entries.get?_put_of_ne hkey]

theorem nodeAt?_set_self (h : Entries.Inline path es) :
    nodeAt? table path (.map (Entries.set table x path es).1) = some x := by
  induction h with
  | last name es => exact nodeAt?_put_self name []
  | under inline _ ih => rw [Entries.set_step inline, nodeAt?_put_self, ih]

/-- Two ways that part somewhere. -/
def Apart (path other : List String) : Prop := ¬path <+: other ∧ ¬other <+: path

instance (path other : List String) : Decidable (Apart path other) :=
  inferInstanceAs (Decidable (¬path <+: other ∧ ¬other <+: path))

theorem Apart.symm (h : Apart path other) : Apart other path := ⟨h.2, h.1⟩

theorem Apart.tail {key : String} (h : Apart (key :: path) (key :: other)) : Apart path other :=
  ⟨fun hp => h.1 (List.cons_prefix_cons.mpr ⟨rfl, hp⟩), fun hp => h.2 (List.cons_prefix_cons.mpr ⟨rfl, hp⟩)⟩

theorem Apart.ne_nil (h : Apart path other) : path ≠ [] ∧ other ≠ [] :=
  ⟨fun hp => h.1 (hp ▸ List.nil_prefix), fun ho => h.2 (ho ▸ List.nil_prefix)⟩

theorem nodeAt?_set_of_apart (h : Entries.Inline path es) (apart : Apart path other) :
    nodeAt? table other (.map (Entries.set table x path es).1) = nodeAt? table other (.map es) := by
  obtain ⟨k, other, rfl⟩ := List.exists_cons_of_ne_nil apart.ne_nil.2
  induction h generalizing k other with
  | last name es =>
      have hk : name ≠ k := by
        rintro rfl
        exact apart.tail.ne_nil.1 rfl
      exact nodeAt?_put_of_ne hk other
  | @under name next path es inline _ ih =>
      rw [Entries.set_step inline]
      by_cases hk : name = k
      · subst hk
        obtain ⟨k, other, rfl⟩ := List.exists_cons_of_ne_nil apart.tail.ne_nil.2
        rw [nodeAt?_put_self, ih k other apart.tail, nodeAt?_map]
        exact nodeAt?_below inline (List.cons_ne_nil k other)
      · exact nodeAt?_put_of_ne hk other

theorem keys_set {P : Scalar → Prop} (htext : ∀ s, P (.text s)) (hes : (Node.map es).Tree) {s : Scalar}
    (hkeys : ∀ fs, nodeAt? table other (.map es) = some (.map fs) → ∀ k ∈ fs.map (·.1), P k) {gs : Entries}
    (h : nodeAt? table other (.map (Entries.set table (.leaf s) path es).1) = some (.map gs)) :
    ∀ k ∈ gs.map (·.1), P k := by
  induction path generalizing es other with
  | nil => exact hkeys gs h
  | cons key path ih =>
      have hput (y : Node) (hgs : Node.map (es.put (.text key) y) = .map gs)
          (hown : ∀ k ∈ es.map (·.1), P k) : ∀ k ∈ gs.map (·.1), P k := by
        cases hgs
        rw [Entries.map_fst_put]
        intro k hk
        obtain rfl | hk := Scalar.mem_addKey hk
        · exact htext key
        · exact hown k hk
      cases path with
      | nil =>
          rw [Entries.set_last] at h
          cases other with
          | nil => exact hput _ (Option.some.inj h) (hkeys es rfl)
          | cons k other =>
              by_cases hk : key = k
              · subst hk
                rw [nodeAt?_put_self] at h
                cases other with
                | nil => cases h
                | cons k other => cases h
              · rw [nodeAt?_put_of_ne hk] at h
                exact hkeys gs h
      | cons next path =>
          rw [Entries.set_step (Entries.inline_get? hes key)] at h
          cases other with
          | nil => exact hput _ (Option.some.inj h) (hkeys es rfl)
          | cons k other =>
              by_cases hk : key = k
              · subst hk
                rw [nodeAt?_put_self] at h
                refine ih (Entries.tree_below hes key) (fun fs hfs => ?_) h
                by_cases hother : other = []
                · subst hother
                  cases hfs
                  rw [Entries.below]
                  split
                  · rename_i inner hinner
                    exact hkeys inner (by rw [nodeAt?_map, hinner]; rfl)
                  · exact List.forall_mem_nil _
                · rw [nodeAt?_below (Entries.inline_get? hes key) hother] at hfs
                  exact hkeys fs hfs
              · rw [nodeAt?_put_of_ne hk] at h
                exact hkeys gs h

end Document

end LedgerQuery
