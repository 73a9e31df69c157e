import LedgerQuery.Proofs.Settings.Override
import Mathlib.Logic.Relation

namespace LedgerQuery

namespace Entries

/-- Two neighbouring entries change places, in the mapping or in one below it. Their keys are texts: of these no two
are read as one, so that nobody can tell which of them comes first. -/
inductive Reorders : Entries → Entries → Prop
  | swap {k l : String} {x y : Node} {rest : Entries} (ne : k ≠ l) :
      Reorders ((.text k, x) :: (.text l, y) :: rest) ((.text l, y) :: (.text k, x) :: rest)
  | inside {key : Scalar} {es fs rest : Entries} (below : Reorders es fs) :
      Reorders ((key, .map es) :: rest) ((key, .map fs) :: rest)
  | after {e : Scalar × Node} {es fs : Entries} (rest : Reorders es fs) : Reorders (e :: es) (e :: fs)

def Reordered : Entries → Entries → Prop := Relation.ReflTransGen Reorders

inductive Moves : Option Node → Option Node → Prop
  | same (o : Option Node) : Moves o o
  | inside {es fs : Entries} (below : Reorders es fs) : Moves (some (.map es)) (some (.map fs))

variable {es fs gs : Entries} {table : Array Node} {x y : Node} {name : String} {key : Scalar}
  {path other : List String}

theorem get?_head (name : String) (x : Node) (rest : Entries) :
    get? (.text name) ((.text name, x) :: rest) = some x := by
  rw [get?, if_pos (Scalar.sameKey_self _)]

theorem get?_tail (h : key ≠ .text name) (x : Node) (rest : Entries) :
    get? (.text name) ((key, x) :: rest) = get? (.text name) rest := by
  rw [get?, if_neg (mt Scalar.sameKey_text_right.mp h)]

theorem put_head (name : String) (x y : Node) (rest : Entries) :
    put (.text name) x ((.text name, y) :: rest) = (.text name, x) :: rest := by
  rw [put, if_pos (Scalar.sameKey_self _)]

theorem put_tail (h : key ≠ .text name) (x y : Node) (rest : Entries) :
    put (.text name) x ((key, y) :: rest) = (key, y) :: put (.text name) x rest := by
  rw [put, if_neg (mt Scalar.sameKey_text_right.mp h)]

theorem text_ne {k l : String} (h : k ≠ l) : Scalar.text k ≠ .text l := fun heq => h (Scalar.text.inj heq)

theorem Reordered.after (h : Reordered es fs) (e : Scalar × Node) : Reordered (e :: es) (e :: fs) :=
  h.lift (e :: ·) fun _ _ => .after

theorem Reorders.moves (h : Reorders es fs) (name : String) : Moves (es.get? (.text name)) (fs.get? (.text name)) := by
  induction h with
  | @swap k l x y rest ne =>
      by_cases hk : k = name
      · subst hk
        rw [get?_head, get?_tail (text_ne ne.symm), get?_head]
        exact .same _
      · rw [get?_tail (text_ne hk)]
        by_cases hl : l = name
        · subst hl
          rw [get?_head, get?_head]
          exact .same _
        · rw [get?_tail (text_ne hl), get?_tail (text_ne hl), get?_tail (text_ne hk)]
          exact .same _
  | @inside key es fs rest below ih =>
      by_cases hkey : key = .text name
      · subst hkey
        rw [get?_head, get?_head]
        exact .inside below
      · rw [get?_tail hkey, get?_tail hkey]
        exact .same _
  | @after e es fs rest ih =>
      obtain ⟨key, x⟩ := e
      by_cases hkey : key = .text name
      · subst hkey
        rw [get?_head, get?_head]
        exact .same _
      · rwa [get?_tail hkey, get?_tail hkey]

theorem Reorders.put (h : Reorders es fs) (name : String) (x : Node) :
    Reordered (es.put (.text name) x) (fs.put (.text name) x) := by
  induction h with
  | @swap k l y z rest ne =>
      by_cases hk : k = name
      · subst hk
        rw [put_head, put_tail (text_ne ne.symm), put_head]
        exact .single (.swap ne)
      · rw [put_tail (text_ne hk)]
        by_cases hl : l = name
        · subst hl
          rw [put_head, put_head]
          exact .single (.swap ne)
        · rw [put_tail (text_ne hl), put_tail (text_ne hl), put_tail (text_ne hk)]
          exact .single (.swap ne)
  | @inside key es fs rest below ih =>
      by_cases hkey : key = .text name
      · subst hkey
        rw [put_head, put_head]
        exact .refl
      · rw [put_tail hkey, put_tail hkey]
        exact .single (.inside below)
  | @after e es fs rest ih =>
      obtain ⟨key, y⟩ := e
      by_cases hkey : key = .text name
      · subst hkey
        rw [put_head, put_head]
        exact .single (.after rest)
      · rw [put_tail hkey, put_tail hkey]
        exact ih.after _

theorem Reordered.put_map (h : Reordered es fs) (name : String) (gs : Entries) :
    Reordered (gs.put (.text name) (.map es)) (gs.put (.text name) (.map fs)) := by
  induction gs with
  | nil => exact h.lift (fun es => [(Scalar.text name, Node.map es)]) fun _ _ => .inside
  | cons e gs ih =>
      obtain ⟨key, y⟩ := e
      by_cases hkey : key = .text name
      · subst hkey
        rw [put_head, put_head]
        exact h.lift (fun es => (Scalar.text name, Node.map es) :: gs) fun _ _ => .inside
      · rw [put_tail hkey, put_tail hkey]
        exact ih.after _

theorem put_put (name : String) (x y : Node) (es : Entries) :
    (es.put (.text name) x).put (.text name) y = es.put (.text name) y := by
  induction es with
  | nil => exact put_head _ _ _ _
  | cons e es ih =>
      obtain ⟨key, z⟩ := e
      by_cases hkey : key = .text name
      · subst hkey
        rw [put_head, put_head, put_head]
      · rw [put_tail hkey, put_tail hkey, put_tail hkey, ih]

theorem put_comm {k l : String} (ne : k ≠ l) (x y : Node) (es : Entries) :
    Reordered ((es.put (.text k) x).put (.text l) y) ((es.put (.text l) y).put (.text k) x) := by
  induction es with
  | nil =>
      have hkl : put (.text l) y [(.text k, x)] = [(.text k, x), (.text l, y)] := put_tail (text_ne ne) _ _ _
      have hlk : put (.text k) x [(.text l, y)] = [(.text l, y), (.text k, x)] := put_tail (text_ne ne.symm) _ _ _
      rw [put, put, hkl, hlk]
      exact .single (.swap ne)
  | cons e es ih =>
      obtain ⟨key, z⟩ := e
      by_cases hk : key = .text k
      · subst hk
        rw [put_head, put_tail (text_ne ne), put_tail (text_ne ne), put_head]
        exact .refl
      · rw [put_tail hk]
        by_cases hl : key = .text l
        · subst hl
          rw [put_head, put_head, put_tail hk]
          exact .refl
        · rw [put_tail hl, put_tail hl, put_tail hk]
          exact ih.after _

theorem Reorders.perm_keys (h : Reorders es fs) : (es.map (·.1)).Perm (fs.map (·.1)) := by
  induction h with
  | swap ne => exact .swap _ _ _
  | inside _ _ => exact .refl _
  | after _ ih => exact .cons _ ih

theorem Reorders.distinct (h : Reorders es fs) (distinct : Scalar.Distinct (es.map (·.1))) :
    Scalar.Distinct (fs.map (·.1)) := by
  refine h.perm_keys.pairwise distinct fun hne => ?_
  rw [Scalar.sameKey, decide_eq_false_iff_not] at hne ⊢
  exact Ne.symm hne

theorem Reorders.trees (h : Reorders es fs) (hes : ∀ e ∈ es, e.2.Tree) : ∀ e ∈ fs, e.2.Tree := by
  induction h with
  | swap ne => exact fun e he => hes e ((List.Perm.swap _ _ _).mem_iff.mp he)
  | inside below ih =>
      obtain ⟨hbelow, hrest⟩ := List.forall_mem_cons.mp hes
      cases hbelow with
      | map distinct inside => exact List.forall_mem_cons.mpr ⟨.map (below.distinct distinct) (ih inside), hrest⟩
  | after _ ih =>
      obtain ⟨hhead, hrest⟩ := List.forall_mem_cons.mp hes
      exact List.forall_mem_cons.mpr ⟨hhead, ih hrest⟩

theorem Reorders.tree (h : Reorders es fs) (hes : (Node.map es).Tree) : (Node.map fs).Tree := by
  cases hes with
  | map distinct inside => exact .map (h.distinct distinct) (h.trees inside)

/-- What an update puts under the first key of its way, where the mapping `inner` is. -/
def place (table : Array Node) (x : Node) (path : List String) (inner : Entries) : Node :=
  match path with
  | [] => x
  | key :: path => .map (set table x (key :: path) inner).1

theorem set_place (hes : (Node.map es).Tree) (key : String) (path : List String) :
    (set table x (key :: path) es).1 = es.put (.text key) (place table x path (es.below key)) := by
  cases path with
  | nil => rfl
  | cons next path => rw [set_step (inline_get? hes key)]; rfl

theorem below_put_of_ne {k l : String} (ne : k ≠ l) (x : Node) (es : Entries) :
    (es.put (.text k) x).below l = es.below l := by
  have hkey : (Scalar.text k).sameKey (.text l) = false := by
    rw [← Bool.not_eq_true, Scalar.sameKey_text]
    exact ne
  rw [below, below, get?_put_of_ne hkey]

theorem below_put_self (name : String) (fs es : Entries) : (es.put (.text name) (.map fs)).below name = fs := by
  rw [below, get?_put_self]

theorem Reorders.below_cases (h : Reorders es fs) (name : String) :
    es.below name = fs.below name ∨ Reorders (es.below name) (fs.below name) := by
  have hmoves := h.moves name
  rw [Entries.below, Entries.below]
  generalize es.get? (.text name) = o, fs.get? (.text name) = o' at hmoves
  cases hmoves with
  | same o => exact .inl rfl
  | inside below => exact .inr below

theorem Reorders.set (h : Reorders es fs) (hes : (Node.map es).Tree) (path : List String) :
    Reordered (set table x path es).1 (set table x path fs).1 := by
  induction path generalizing es fs with
  | nil => exact .single h
  | cons key path ih =>
      rw [set_place hes, set_place (h.tree hes)]
      obtain heq | hbelow := h.below_cases key
      · rw [heq]
        exact h.put key _
      · refine (h.put key _).trans ?_
        cases path with
        | nil => exact .refl
        | cons next path => exact (ih hbelow (tree_below hes key)).put_map key fs

/-- Updates at ways that part can be made in any order. -/
theorem set_comm (hes : (Node.map es).Tree) (hx : x.Tree) (hy : y.Tree) (apart : Document.Apart path other) :
    Reordered (set table y other (set table x path es).1).1 (set table x path (set table y other es).1).1 := by
  induction path generalizing es other with
  | nil => exact absurd rfl apart.ne_nil.1
  | cons k path ih =>
      cases other with
      | nil => exact absurd rfl apart.ne_nil.2
      | cons l other =>
          have hesx := (tree_set table hes hx (k :: path)).1
          have hesy := (tree_set table hes hy (l :: other)).1
          rw [set_place hesx, set_place hesy, set_place hes, set_place hes]
          by_cases hkl : k = l
          · subst hkl
            -- Where the ways have gone the same steps, both set the one mapping, each a part of it.
            obtain ⟨next, path, rfl⟩ := List.exists_cons_of_ne_nil apart.tail.ne_nil.1
            obtain ⟨next', other, rfl⟩ := List.exists_cons_of_ne_nil apart.tail.ne_nil.2
            rw [put_put, put_put]
            simp only [place, below_put_self]
            exact (ih (tree_below hes k) apart.tail).put_map k es
          · rw [below_put_of_ne hkl, below_put_of_ne (Ne.symm hkl)]
            exact put_comm hkl _ _ es

theorem Reordered.tree (h : Reordered es fs) (hes : (Node.map es).Tree) : (Node.map fs).Tree := by
  induction h with
  | refl => exact hes
  | tail _ step ih => exact step.tree ih

theorem Reordered.set (h : Reordered es fs) (hes : (Node.map es).Tree) (path : List String) :
    Reordered (set table x path es).1 (set table x path fs).1 := by
  induction h with
  | refl => exact .refl
  | tail earlier step ih => exact ih.trans (step.set (Reordered.tree earlier hes) path)

theorem Reordered.overlay (h : Reordered es fs) (hes : (Node.map es).Tree) (vars : Assignments) :
    Reordered (es.overlay table vars) (fs.overlay table vars) := by
  induction vars generalizing es fs with
  | nil => exact h
  | cons var vars ih => exact ih (h.set hes var.1) (tree_set table hes (.leaf (.text var.2)) var.1).1

theorem overlay_perm {vars vars' : Assignments} (perm : vars.Perm vars') (unambiguous : Unambiguous vars)
    (hes : (Node.map es).Tree) : Reordered (es.overlay table vars) (es.overlay table vars') := by
  induction perm generalizing es with
  | nil => exact .refl
  | cons var _ ih =>
      exact ih (List.pairwise_cons.mp unambiguous).2 (tree_set table hes (.leaf (.text var.2)) var.1).1
  | swap v w rest =>
      obtain ⟨hw, -⟩ := List.pairwise_cons.mp unambiguous
      have hleaf (text : String) : (Node.leaf (.text text)).Tree := .leaf _
      refine (set_comm hes (hleaf w.2) (hleaf v.2) (hw v List.mem_cons_self)).overlay ?_ rest
      exact (tree_set table (tree_set table hes (hleaf w.2) w.1).1 (hleaf v.2) v.1).1
  | trans perm _ ih ih' =>
      exact (ih unambiguous hes).trans (ih' (perm.pairwise unambiguous fun apart => apart.symm) hes)

end Entries

end LedgerQuery
