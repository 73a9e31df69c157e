import LedgerQuery.Yaml.Merge
import LedgerQuery.Proofs.Yaml.Forest

namespace LedgerQuery.Yaml

/-- A tag that lets a key be a text counts as that of texts. -/
def Tag.plain : Tag → Tag
  | .value => .str
  | t => t

theorem Tag.eq_of_plain {t u : Tag} (h : t.plain = u.plain) (hu : u.isCollection = true) : t = u := by
  revert h hu
  cases u <;> cases t <;> decide

def Vertex.plain : Vertex → Vertex
  | .scalar tag content => .scalar tag.plain content
  | .sequence tag items => .sequence tag.plain items
  | .mapping tag entries => .mapping tag.plain entries

/-- Graphs that differ only in which nodes are tagged as the value among the entries. -/
def Like (g g' : Graph) : Prop :=
  ∀ i : Nat, g'[i]?.map Vertex.plain = g[i]?.map Vertex.plain

def Child (g : Graph) (i c : Nat) : Prop := ∃ v, g[i]? = some v ∧ c ∈ v.children

/-- A sequence that stands for entries: what it has are mappings, of which their parts are taken. -/
def Paired (g : Graph) (i : Nat) : Prop :=
  ∃ tag items, g[i]? = some (.sequence tag items) ∧ (tag = .omap ∨ tag = .pairs)

namespace Like

variable {g g' g'' : Graph} {i c : Nat}

theorem refl (g : Graph) : Like g g := fun _ => rfl

theorem trans (h : Like g g') (h' : Like g' g'') : Like g g'' := fun i => (h' i).trans (h i)

theorem getElem? (h : Like g g') {v : Vertex} (hv : g'[i]? = some v) :
    ∃ u, g[i]? = some u ∧ u.plain = v.plain := by
  have hi := h i
  rw [hv, Option.map_some] at hi
  exact Option.map_eq_some_iff.mp hi.symm

theorem sequence (h : Like g g') {tag : Tag} {items : List Nat} (hv : g'[i]? = some (.sequence tag items)) :
    ∃ tag', g[i]? = some (.sequence tag' items) ∧ tag'.plain = tag.plain := by
  obtain ⟨u, hu, heq⟩ := h.getElem? hv
  cases u <;> simp [Vertex.plain] at heq
  exact ⟨_, heq.2 ▸ hu, heq.1⟩

theorem mapping (h : Like g g') {tag : Tag} {es : List (Nat × Nat)} (hv : g'[i]? = some (.mapping tag es)) :
    ∃ tag', g[i]? = some (.mapping tag' es) := by
  obtain ⟨u, hu, heq⟩ := h.getElem? hv
  cases u <;> simp [Vertex.plain] at heq
  exact ⟨_, heq.2 ▸ hu⟩

theorem entries (h : Like g g') (i : Nat) : g'.entries i = g.entries i := by
  have hi := h i
  rw [Graph.entries, Graph.entries]
  cases hv : g'[i]? with
  | none =>
      rw [hv, Option.map_none] at hi
      rw [Option.map_eq_none_iff.mp hi.symm]
  | some v =>
      obtain ⟨u, hu, heq⟩ := h.getElem? hv
      rw [hu]
      cases u <;> cases v <;> simp [Vertex.plain] at heq <;> simp [heq]

theorem tag (h : Like g g') (i : Nat) : (g'.tag i).plain = (g.tag i).plain := by
  have hi := h i
  rw [Graph.tag, Graph.tag]
  cases hv : g'[i]? with
  | none =>
      rw [hv, Option.map_none] at hi
      rw [Option.map_eq_none_iff.mp hi.symm]
  | some v =>
      obtain ⟨u, hu, heq⟩ := h.getElem? hv
      rw [hu]
      cases u <;> cases v <;> simp [Vertex.plain] at heq <;> simp [Vertex.tag, heq]

end Like

theorem like_set {g : Graph} {i : Nat} {v w : Vertex} (hv : g[i]? = some v) (heq : w.plain = v.plain) :
    Like g (g.setIfInBounds i w) := by
  intro j
  rw [Array.getElem?_setIfInBounds]
  split
  · rename_i hij
    subst hij
    rw [hv]
    split
    · rw [Option.map_some, Option.map_some, heq]
    · rename_i hsize
      exact absurd (Array.getElem?_eq_some_iff.mp hv).1 hsize
  · rfl

theorem like_retag (g : Graph) (i : Nat) : Like g (g.retag i) := by
  unfold Graph.retag
  split
  · rename_i hv
    exact like_set hv rfl
  · rename_i hv
    exact like_set hv rfl
  · rename_i hv
    exact like_set hv rfl
  · exact .refl g

theorem like_setEntries (g : Graph) (i : Nat) : Like g (g.setEntries i (g.entries i)) := by
  unfold Graph.setEntries
  split
  · rename_i tag es hv
    refine like_set hv ?_
    rw [Graph.entries, hv]
  · exact .refl g

theorem like_finishMerge (g : Graph) (i : Nat) : Like g (g.finishMerge i []) := by
  have hfold (es : List (Nat × Nat)) (h : Graph) : Like h (es.foldl (fun g e => g.retag e.1) h) := by
    induction es generalizing h with
    | nil => exact .refl h
    | cons e es ih => exact (like_retag h e.1).trans (ih _)
  exact (like_setEntries g i).trans (hfold (g.entries i) _)

theorem takeMerge?_eq_none {g : Graph} {es : List (Nat × Nat)} (h : ∀ e ∈ es, g.tag e.1 ≠ .merge) :
    g.takeMerge? es = none := by
  induction es with
  | nil => rfl
  | cons e es ih =>
      obtain ⟨hhead, htail⟩ := List.forall_mem_cons.mp h
      rw [Graph.takeMerge?, if_neg hhead, ih htail]
      rfl

theorem flatten_eq {g : Graph} {i : Nat} (h : ∀ e ∈ g.entries i, g.tag e.1 ≠ .merge) :
    g.flatten i = .ok (g.finishMerge i []) := by
  rw [Graph.flatten, Graph.flattenFrom, takeMerge?_eq_none h]

/-- A graph in which each node is in one place at most. -/
structure Treelike (g : Graph) (root : Nat) : Prop where
  nodup : (root :: edges g.toList).Nodup
  merges : ∀ i, ∀ e ∈ g.entries i, g.tag e.1 ≠ .merge

namespace Treelike

variable {g : Graph} {root i j c : Nat} (hg : Treelike g root)

include hg

theorem not_child_root : ¬Child g i root := by
  rintro ⟨v, hv, hmem⟩
  have hvmem : v ∈ g.toList := Array.mem_toList_iff.mpr (Array.mem_of_getElem? hv)
  exact (List.nodup_cons.mp hg.nodup).1 (List.mem_flatMap.mpr ⟨v, hvmem, hmem⟩)

theorem nodup_children {v : Vertex} (hv : g[i]? = some v) : v.children.Nodup :=
  (List.nodup_flatMap.mp (List.nodup_cons.mp hg.nodup).2).1 v
    (Array.mem_toList_iff.mpr (Array.mem_of_getElem? hv))

theorem child_unique (hi : Child g i c) (hj : Child g j c) : i = j := by
  obtain ⟨v, hv, hvc⟩ := hi
  obtain ⟨w, hw, hwc⟩ := hj
  have hdisjoint := List.pairwise_iff_getElem.mp (List.nodup_flatMap.mp (List.nodup_cons.mp hg.nodup).2).2
  obtain ⟨hi, rfl⟩ := Array.getElem?_eq_some_iff.mp hv
  obtain ⟨hj, rfl⟩ := Array.getElem?_eq_some_iff.mp hw
  obtain hlt | heq | hlt := Nat.lt_trichotomy i j
  · exact absurd hwc (hdisjoint i j hi hj hlt hvc)
  · exact heq
  · exact absurd hvc (hdisjoint j i hj hi hlt hwc)

end Treelike

/-- No node that stands for entries has the node: it is itself taken as a part, where it is. -/
def Taken (g : Graph) (i : Nat) : Prop := ∀ h, Child g h i → ¬Paired g h

/-- The part `c` is taken from the collection `i`: it is in it, or in one of the entries that it stands for. -/
inductive Owned (g : Graph) (i c : Nat) : Prop
  | direct (taken : Taken g i) (child : Child g i c)
  | paired {j : Nat} (paired : Paired g i) (item : Child g i j) (child : Child g j c)

namespace Treelike

variable {g : Graph} {root i j c : Nat} (hg : Treelike g root)

include hg

theorem not_owned_root : ¬Owned g i root := by
  rintro (⟨-, hchild⟩ | ⟨-, -, hchild⟩) <;> exact hg.not_child_root hchild

theorem owned_unique (hi : Owned g i c) (hj : Owned g j c) : i = j := by
  cases hi with
  | direct htaken hchild =>
      cases hj with
      | direct _ hchild' => exact hg.child_unique hchild hchild'
      | paired hpaired hitem hchild' =>
          obtain rfl := hg.child_unique hchild hchild'
          exact absurd hpaired (htaken _ hitem)
  | paired hpaired hitem hchild =>
      cases hj with
      | direct htaken hchild' =>
          obtain rfl := hg.child_unique hchild hchild'
          exact absurd hpaired (htaken _ hitem)
      | paired _ hitem' hchild' =>
          obtain rfl := hg.child_unique hchild hchild'
          exact hg.child_unique hitem hitem'

theorem taken_root : Taken g root := fun _ hchild => absurd hchild hg.not_child_root

theorem taken_of_child (hchild : Child g i c) (h : ¬Paired g i) : Taken g c := by
  intro k hk
  rwa [hg.child_unique hk hchild]

theorem nodup_flatMap {js : List Nat} (hjs : js.Nodup) {parts : Nat → List Nat}
    (hnodup : ∀ j ∈ js, (parts j).Nodup) (hchild : ∀ j, ∀ c ∈ parts j, Child g j c) : (js.flatMap parts).Nodup :=
  List.nodup_flatMap.mpr ⟨hnodup, hjs.imp fun hne _ hj hk =>
    hne (hg.child_unique (hchild _ _ hj) (hchild _ _ hk))⟩

theorem nodup_entries (i : Nat) : ((g.entries i).flatMap fun e => [e.1, e.2]).Nodup := by
  rw [Graph.entries]
  split
  · exact hg.nodup_children (v := .mapping _ _) (by assumption)
  · exact List.nodup_nil

end Treelike

theorem child_of_mem_entries {g : Graph} {i c : Nat} (h : c ∈ (g.entries i).flatMap fun e => [e.1, e.2]) :
    Child g i c := by
  rw [Graph.entries] at h
  split at h
  · rename_i hv
    exact ⟨_, hv, h⟩
  · cases h

end LedgerQuery.Yaml
