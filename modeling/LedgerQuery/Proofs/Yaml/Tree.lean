import LedgerQuery.Yaml.Value
import LedgerQuery.Proofs.Document.Update
import LedgerQuery.Proofs.Yaml.Graph
import Mathlib.Data.List.Perm.Subperm

namespace LedgerQuery.Yaml

def Collection.collections (c : Collection) : List Nat := c.parts.flatMap Part.collections

/-- A collection that is made from a node as it should: it has what is its own, once, and no key twice. -/
structure Proper (g : Graph) (i : Nat) (c : Collection) : Prop where
  nodup : c.collections.Nodup
  owned : ∀ k ∈ c.collections, Owned g i k
  distinct : ∀ es, c = .map es → Scalar.Distinct (es.map (·.1))

/-- What has been made so far, while some collections are under way, is as it should be. -/
structure Sound (g : Graph) (busy : List Nat) (m : Making) : Prop where
  like : Like g m.graph
  taken : ∀ i ∈ m.met, Taken g i
  nodup : (m.made.map (·.1) ++ busy ++ m.queue).Nodup
  met : ∀ i ∈ m.made.map (·.1) ++ busy ++ m.queue, i ∈ m.met
  proper : ∀ e ∈ m.made, Proper g e.1 e.2

namespace Maker

variable {g : Graph} {root : Nat} {busy : List Nat} {m m' : Making}

theorem part_sound {i : Nat} {p : Part} (hi : Taken g i) (hm : Sound g busy m) (h : part i m = .ok (p, m')) :
    Sound g busy m' ∧ p.collections.Sublist [i] ∧ m'.graph = m.graph := by
  obtain ⟨_, _, hget, h⟩ := bind_eq_ok.mp h
  obtain ⟨rfl, rfl⟩ := get_eq_ok.mp hget
  split at h
  · split at h
    · rename_i hmet
      obtain ⟨_, _, hset, h⟩ := bind_eq_ok.mp h
      obtain ⟨rfl, rfl⟩ := pure_eq_ok.mp h
      cases hset
      refine ⟨⟨hm.like, ?_, ?_, ?_, hm.proper⟩, List.Sublist.refl _, rfl⟩
      · exact List.forall_mem_cons.mpr ⟨hi, hm.taken⟩
      · rw [← List.append_assoc, List.nodup_append]
        refine ⟨hm.nodup, List.nodup_singleton i, ?_⟩
        rintro j hj _ hi rfl
        rw [List.mem_singleton.mp hi] at hj
        exact hmet (hm.met i hj)
      · intro j hj
        rw [← List.append_assoc, List.mem_append, List.mem_singleton] at hj
        obtain hj | rfl := hj
        · exact List.mem_cons_of_mem _ (hm.met j hj)
        · exact List.mem_cons_self ..
    · obtain ⟨rfl, rfl⟩ := pure_eq_ok.mp h
      exact ⟨hm, List.Sublist.refl _, rfl⟩
  · split at h
    · cases h
    · obtain ⟨content, _, hcontent, h⟩ := bind_eq_ok.mp h
      obtain ⟨-, rfl⟩ := lift_eq_ok.mp hcontent
      obtain ⟨s, _, hscalar, h⟩ := bind_eq_ok.mp h
      obtain ⟨-, rfl⟩ := lift_eq_ok.mp hscalar
      obtain ⟨rfl, rfl⟩ := pure_eq_ok.mp h
      exact ⟨hm, List.nil_sublist _, rfl⟩

/-- A step that makes one part, of what belongs to a node. -/
def Makes (g : Graph) (busy : List Nat) (x : Maker Part) (own : List Nat) : Prop :=
  ∀ m p m', Sound g busy m → x m = .ok (p, m') → Sound g busy m' ∧ p.collections.Sublist own

theorem makes_part {i : Nat} (hi : Taken g i) : Makes g busy (part i) [i] := fun _ _ _ hm h =>
  ⟨(part_sound hi hm h).1, (part_sound hi hm h).2.1⟩

theorem mapM_sound {f : Nat → Maker Part} {own : Nat → List Nat} {js : List Nat}
    (hf : ∀ j ∈ js, Makes g busy (f j) (own j)) {ps : List Part} (hm : Sound g busy m)
    (h : js.mapM f m = .ok (ps, m')) :
    Sound g busy m' ∧ (ps.flatMap Part.collections).Sublist (js.flatMap own) := by
  induction js generalizing m ps with
  | nil =>
      rw [List.mapM_nil] at h
      obtain ⟨rfl, rfl⟩ := pure_eq_ok.mp h
      exact ⟨hm, List.Sublist.refl _⟩
  | cons j js ih =>
      obtain ⟨hj, hjs⟩ := List.forall_mem_cons.mp hf
      rw [List.mapM_cons] at h
      obtain ⟨p, m₁, hp, h⟩ := bind_eq_ok.mp h
      obtain ⟨hm₁, hown⟩ := hj _ _ _ hm hp
      obtain ⟨ps, m₂, hps, h⟩ := bind_eq_ok.mp h
      obtain ⟨rfl, rfl⟩ := pure_eq_ok.mp h
      obtain ⟨hm₂, howns⟩ := ih hjs hm₁ hps
      exact ⟨hm₂, hown.append howns⟩

theorem items_eq_ok {i : Nat} {js : List Nat} (hlike : Like g m.graph) (htag : (m.graph.tag i).isCollection = true)
    (h : items i m = .ok (js, m')) : m = m' ∧ g[i]? = some (.sequence (m.graph.tag i) js) := by
  obtain ⟨_, _, hget, h⟩ := bind_eq_ok.mp h
  obtain ⟨rfl, rfl⟩ := get_eq_ok.mp hget
  cases hv : m.graph[i]? with
  | none =>
      rw [hv] at h
      cases h
  | some v =>
      rw [hv] at h
      cases v with
      | sequence tag js =>
          obtain ⟨rfl, rfl⟩ := pure_eq_ok.mp h
          obtain ⟨tag', hv', hplain⟩ := hlike.sequence hv
          have heq : m.graph.tag i = tag := by
            rw [Graph.tag, hv]
            rfl
          rw [heq] at htag ⊢
          rw [← Tag.eq_of_plain hplain htag]
          exact ⟨rfl, hv'⟩
      | _ => cases h

theorem single_eq_ok {i : Nat} {e : Nat × Nat} (h : single i m = .ok (e, m')) :
    m = m' ∧ ∃ tag, m.graph[i]? = some (.mapping tag [e]) := by
  obtain ⟨_, _, hget, h⟩ := bind_eq_ok.mp h
  obtain ⟨rfl, rfl⟩ := get_eq_ok.mp hget
  cases hv : m.graph[i]? with
  | none =>
      rw [hv] at h
      cases h
  | some v =>
      rw [hv] at h
      cases v with
      | mapping tag es =>
          obtain _ | ⟨e', _ | _⟩ := es
          · cases h
          · obtain ⟨rfl, rfl⟩ := pure_eq_ok.mp h
            exact ⟨rfl, tag, rfl⟩
          · cases h
      | _ => cases h

theorem makes_pair (hg : Treelike g root) {j : Nat} :
    Makes g busy (single j >>= fun e => part e.1 >>= fun k => part e.2 >>= fun v => pure (.pair k v))
      ((g.entries j).flatMap fun e => [e.1, e.2]) := by
  intro m p m' hm h
  obtain ⟨e, _, hsingle, h⟩ := bind_eq_ok.mp h
  obtain ⟨rfl, tag, hj⟩ := single_eq_ok hsingle
  obtain ⟨tag', hj⟩ := hm.like.mapping hj
  have hpaired : ¬Paired g j := by
    rintro ⟨_, _, heq, -⟩
    rw [hj] at heq
    cases heq
  have htaken (c) (hc : c ∈ [e.1, e.2]) : Taken g c := by
    refine hg.taken_of_child ⟨_, hj, ?_⟩ hpaired
    simpa [Vertex.children] using hc
  obtain ⟨k, m₁, hk, h⟩ := bind_eq_ok.mp h
  obtain ⟨hm₁, hsubk, -⟩ := part_sound (htaken _ (by simp)) hm hk
  obtain ⟨v, m₂, hv, h⟩ := bind_eq_ok.mp h
  obtain ⟨hm₂, hsubv, -⟩ := part_sound (htaken _ (by simp)) hm₁ hv
  obtain ⟨rfl, rfl⟩ := pure_eq_ok.mp h
  refine ⟨hm₂, ?_⟩
  rw [Graph.entries, hj]
  exact hsubk.append hsubv

theorem map_fst_putEntry (key : Scalar) (x : Part) (es : List (Scalar × Part)) :
    (putEntry key x es).map (·.1) = Scalar.addKey key (es.map (·.1)) := by
  induction es with
  | nil => rfl
  | cons e rest ih =>
      rw [putEntry, List.map_cons, Scalar.addKey]
      split
      · rfl
      · rw [List.map_cons, ih]

theorem putEntry_collections (key : Scalar) (x : Part) (es : List (Scalar × Part)) :
    ((putEntry key x es).flatMap (·.2.collections)).Subperm (x.collections ++ es.flatMap (·.2.collections)) := by
  induction es with
  | nil =>
      rw [putEntry, List.flatMap_cons]
  | cons e rest ih =>
      rw [putEntry, List.flatMap_cons]
      split
      · rw [List.flatMap_cons]
        exact ((List.sublist_append_right _ _).append_left _).subperm
      · rw [List.flatMap_cons]
        refine ((List.subperm_append_left e.2.collections).mpr ih).trans ?_
        rw [← List.append_assoc, ← List.append_assoc]
        exact (List.perm_append_comm.append_right _).subperm

def addEntry (made : List (Scalar × Part)) (e : Nat × Nat) : Maker (List (Scalar × Part)) := do
  match ← part e.1 with
  | .scalar key => return putEntry key (← part e.2) made
  | _ => throw .construction

theorem addEntry_sound {made made' : List (Scalar × Part)} {e : Nat × Nat} (hkey : Taken g e.1)
    (hvalue : Taken g e.2) (hm : Sound g busy m) (hdistinct : Scalar.Distinct (made.map (·.1)))
    (h : addEntry made e m = .ok (made', m')) :
    Sound g busy m' ∧ Scalar.Distinct (made'.map (·.1)) ∧
      (made'.flatMap (·.2.collections)).Subperm (e.2 :: made.flatMap (·.2.collections)) := by
  obtain ⟨k, m₁, hk, h⟩ := bind_eq_ok.mp h
  obtain ⟨hm₁, -⟩ := part_sound hkey hm hk
  cases k with
  | scalar key =>
      obtain ⟨x, m₂, hx, h⟩ := bind_eq_ok.mp h
      obtain ⟨hm₂, hown, -⟩ := part_sound hvalue hm₁ hx
      obtain ⟨rfl, rfl⟩ := pure_eq_ok.mp h
      refine ⟨hm₂, map_fst_putEntry key x made ▸ Scalar.distinct_addKey hdistinct key, ?_⟩
      exact (putEntry_collections key x made).trans (hown.append_right _).subperm
  | _ => cases h

theorem foldlM_sound {es : List (Nat × Nat)} (hes : ∀ e ∈ es, Taken g e.1 ∧ Taken g e.2)
    {made made' : List (Scalar × Part)} (hm : Sound g busy m) (hdistinct : Scalar.Distinct (made.map (·.1)))
    (h : es.foldlM addEntry made m = .ok (made', m')) :
    Sound g busy m' ∧ Scalar.Distinct (made'.map (·.1)) ∧
      (made'.flatMap (·.2.collections)).Subperm (es.map (·.2) ++ made.flatMap (·.2.collections)) := by
  induction es generalizing m made with
  | nil =>
      obtain ⟨rfl, rfl⟩ := pure_eq_ok.mp h
      exact ⟨hm, hdistinct, List.Subperm.refl _⟩
  | cons e es ih =>
      obtain ⟨⟨hkey, hvalue⟩, hrest⟩ := List.forall_mem_cons.mp hes
      rw [List.foldlM_cons] at h
      obtain ⟨next, m₁, hnext, h⟩ := bind_eq_ok.mp h
      obtain ⟨hm₁, hdistinct₁, hsub⟩ := addEntry_sound hkey hvalue hm hdistinct hnext
      obtain ⟨hm₂, hdistinct₂, hsub₂⟩ := ih hrest hm₁ hdistinct₁ h
      refine ⟨hm₂, hdistinct₂, hsub₂.trans ?_⟩
      rw [List.map_cons, List.cons_append]
      exact ((List.subperm_append_left _).mpr hsub).trans List.perm_middle.subperm

theorem entries_sound (hg : Treelike g root) {i : Nat} {made : List (Scalar × Part)} (hm : Sound g busy m)
    (h : entries i m = .ok (made, m')) :
    Sound g busy m' ∧ Scalar.Distinct (made.map (·.1)) ∧ ¬Paired g i ∧
      (made.flatMap (·.2.collections)).Nodup ∧ ∀ k ∈ made.flatMap (·.2.collections), Child g i k := by
  obtain ⟨_, _, hget, h⟩ := bind_eq_ok.mp h
  obtain ⟨rfl, rfl⟩ := get_eq_ok.mp hget
  split at h
  · cases h
  rename_i hmapping
  obtain ⟨_, _, hget, h⟩ := bind_eq_ok.mp h
  obtain ⟨rfl, rfl⟩ := get_eq_ok.mp hget
  obtain ⟨g₁, _, hlift, h⟩ := bind_eq_ok.mp h
  obtain ⟨hflatten, rfl⟩ := lift_eq_ok.mp hlift
  obtain ⟨_, m₁, hmodify, h⟩ := bind_eq_ok.mp h
  obtain rfl := modify_eq_ok.mp hmodify
  obtain ⟨tag, es, hv⟩ : ∃ tag es, m.graph[i]? = some (.mapping tag es) := by
    simp only [Graph.isMapping, Bool.not_eq_true', Bool.not_eq_false] at hmapping
    split at hmapping
    · exact ⟨_, _, by assumption⟩
    · cases hmapping
  obtain ⟨tag', hv'⟩ := hm.like.mapping hv
  -- Keys may have been retagged as texts meanwhile, which makes none of them a merge key.
  have hmerges : ∀ e ∈ m.graph.entries i, m.graph.tag e.1 ≠ .merge := by
    intro e he hmerge
    rw [hm.like.entries i] at he
    have htag := hm.like.tag e.1
    rw [hmerge] at htag
    cases hplain : g.tag e.1 with
    | merge => exact hg.merges i e he hplain
    | _ => rw [hplain] at htag; cases htag
  rw [flatten_eq hmerges] at hflatten
  obtain rfl := Except.ok.inj hflatten
  have hlike : Like g (m.graph.finishMerge i []) := hm.like.trans (like_finishMerge m.graph i)
  rw [hlike.entries i, Graph.entries, hv'] at h
  have hchild (e) (he : e ∈ es) : Child g i e.1 ∧ Child g i e.2 :=
    ⟨⟨_, hv', List.mem_flatMap.mpr ⟨e, he, by simp⟩⟩, ⟨_, hv', List.mem_flatMap.mpr ⟨e, he, by simp⟩⟩⟩
  have hpaired : ¬Paired g i := by
    rintro ⟨_, _, heq, -⟩
    rw [hv'] at heq
    cases heq
  have htaken (e) (he : e ∈ es) : Taken g e.1 ∧ Taken g e.2 :=
    ⟨hg.taken_of_child (hchild e he).1 hpaired, hg.taken_of_child (hchild e he).2 hpaired⟩
  have hm₁ : Sound g busy { m with graph := m.graph.finishMerge i [] } :=
    ⟨hlike, hm.taken, hm.nodup, hm.met, hm.proper⟩
  have hempty : Scalar.Distinct (([] : List (Scalar × Part)).map (·.1)) := .nil
  obtain ⟨hm', hdistinct, l, hperm, hsub⟩ := foldlM_sound htaken hm₁ hempty h
  rw [List.flatMap_nil, List.append_nil] at hsub
  have hvalues : (es.map (·.2)).Sublist (es.flatMap fun e => [e.1, e.2]) := by
    clear hv hv' h hchild htaken hsub
    induction es with
    | nil => exact List.Sublist.refl _
    | cons e es ih => exact (ih.cons_cons e.2).cons e.1
  refine ⟨hm', hdistinct, hpaired, ?_, fun k hk => ?_⟩
  · exact hperm.nodup_iff.mp ((hsub.trans hvalues).nodup (hg.nodup_children hv'))
  · exact ⟨_, hv', hvalues.subset (hsub.subset (hperm.mem_iff.mpr hk))⟩

section

variable (hg : Treelike g root) {i : Nat} {c : Collection}

include hg

theorem make_sequence (hi : Taken g i) (htag : m.graph.tag i = .seq) (hm : Sound g busy m)
    (h : (items i >>= fun js => js.mapM part >>= fun ps => pure (.list ps)) m = .ok (c, m')) :
    Sound g busy m' ∧ Proper g i c := by
  obtain ⟨js, _, hitems, h⟩ := bind_eq_ok.mp h
  obtain ⟨rfl, hv⟩ := items_eq_ok hm.like (by rw [htag]; rfl) hitems
  obtain ⟨ps, _, hps, h⟩ := bind_eq_ok.mp h
  obtain ⟨rfl, rfl⟩ := pure_eq_ok.mp h
  rw [htag] at hv
  have hpaired : ¬Paired g i := by
    rintro ⟨_, _, heq, htag'⟩
    rw [hv] at heq
    cases heq
    obtain htag' | htag' := htag' <;> cases htag'
  have hchild (j) (hj : j ∈ js) : Child g i j := ⟨_, hv, hj⟩
  obtain ⟨hm', hsub⟩ := mapM_sound (fun j hj => makes_part (hg.taken_of_child (hchild j hj) hpaired)) hm hps
  rw [List.flatMap_singleton'] at hsub
  exact ⟨hm', hsub.nodup (hg.nodup_children hv), fun k hk => .direct hi (hchild k (hsub.subset hk)), nofun⟩

theorem make_pairs (htag : m.graph.tag i = .omap ∨ m.graph.tag i = .pairs) (hm : Sound g busy m)
    (h : (items i >>= fun js => js.mapM (fun j =>
      single j >>= fun e => part e.1 >>= fun k => part e.2 >>= fun v => pure (.pair k v)) >>= fun ps =>
        pure (.list ps)) m = .ok (c, m')) : Sound g busy m' ∧ Proper g i c := by
  obtain ⟨js, _, hitems, h⟩ := bind_eq_ok.mp h
  obtain ⟨rfl, hv⟩ := items_eq_ok hm.like (by obtain htag | htag := htag <;> rw [htag] <;> rfl) hitems
  obtain ⟨ps, _, hps, h⟩ := bind_eq_ok.mp h
  obtain ⟨rfl, rfl⟩ := pure_eq_ok.mp h
  obtain ⟨hm', hsub⟩ := mapM_sound (fun j _ => makes_pair hg) hm hps
  refine ⟨hm', hsub.nodup ?_, fun k hk => ?_, nofun⟩
  · exact hg.nodup_flatMap (hg.nodup_children hv) (fun j _ => hg.nodup_entries j) fun j c => child_of_mem_entries
  · obtain ⟨j, hj, hkj⟩ := List.mem_flatMap.mp (hsub.subset hk)
    exact .paired ⟨_, js, hv, htag⟩ ⟨_, hv, hj⟩ (child_of_mem_entries hkj)

theorem make_sound (hi : Taken g i) (hm : Sound g busy m) (h : make i m = .ok (c, m')) :
    Sound g busy m' ∧ Proper g i c := by
  obtain ⟨_, _, hget, h⟩ := bind_eq_ok.mp h
  obtain ⟨rfl, rfl⟩ := get_eq_ok.mp hget
  have hmap (h : (entries i >>= fun made => pure (.map made)) m = .ok (c, m')) :
      Sound g busy m' ∧ Proper g i c := by
    obtain ⟨made, _, hmade, h⟩ := bind_eq_ok.mp h
    obtain ⟨rfl, rfl⟩ := pure_eq_ok.mp h
    obtain ⟨hm', hdistinct, hpaired, hnodup, hchild⟩ := entries_sound hg hm hmade
    have hcollections : (Collection.map made).collections = made.flatMap (·.2.collections) := List.flatMap_map ..
    refine ⟨hm', hcollections ▸ hnodup, fun k hk => .direct hi (hchild k (hcollections ▸ hk)), ?_⟩
    rintro _ ⟨⟩
    exact hdistinct
  cases htag : m.graph.tag i with
  | seq =>
      rw [htag] at h
      exact make_sequence hg hi htag hm h
  | omap =>
      rw [htag] at h
      exact make_pairs hg (.inl htag) hm h
  | pairs =>
      rw [htag] at h
      exact make_pairs hg (.inr htag) hm h
  | set =>
      rw [htag] at h
      obtain ⟨made, _, hmade, h⟩ := bind_eq_ok.mp h
      obtain ⟨rfl, rfl⟩ := pure_eq_ok.mp h
      obtain ⟨hm', -⟩ := entries_sound hg hm hmade
      have hnone : (Collection.list (made.map fun e => .scalar e.1)).collections = [] := by
        refine List.flatMap_eq_nil_iff.mpr fun p hp => ?_
        obtain ⟨e, -, rfl⟩ := List.mem_map.mp hp
        rfl
      refine ⟨hm', hnone ▸ List.nodup_nil, fun k hk => ?_, nofun⟩
      rw [hnone] at hk
      cases hk
  | _ =>
      rw [htag] at h
      exact hmap h

end

theorem makeAll_sound (hg : Treelike g root) {fuel : Nat} {u : Unit} (hm : Sound g [] m)
    (h : makeAll fuel m = .ok (u, m')) : Sound g [] m' := by
  induction fuel generalizing m with
  | zero =>
      obtain ⟨-, rfl⟩ := pure_eq_ok.mp h
      exact hm
  | succ fuel ih =>
      rw [makeAll] at h
      obtain ⟨_, _, hget, h⟩ := bind_eq_ok.mp h
      obtain ⟨rfl, rfl⟩ := get_eq_ok.mp hget
      cases hqueue : m.queue with
      | nil =>
          rw [hqueue] at h
          obtain ⟨-, rfl⟩ := pure_eq_ok.mp h
          exact hm
      | cons i queue =>
          rw [hqueue] at h
          obtain ⟨_, _, hmodify, h⟩ := bind_eq_ok.mp h
          obtain rfl := modify_eq_ok.mp hmodify
          obtain ⟨c, m₁, hc, h⟩ := bind_eq_ok.mp h
          obtain ⟨_, _, hmodify, h⟩ := bind_eq_ok.mp h
          obtain rfl := modify_eq_ok.mp hmodify
          -- The first of the queue is under way until it is made, and then one of those that are.
          have hall : m.made.map (·.1) ++ [] ++ m.queue = m.made.map (·.1) ++ [i] ++ queue := by
            rw [hqueue, List.append_nil, List.append_assoc, List.singleton_append]
          have hbusy : Sound g [i] { m with queue } :=
            ⟨hm.like, hm.taken, hall ▸ hm.nodup, hall ▸ hm.met, hm.proper⟩
          have hi : Taken g i := hm.taken i (hm.met i (hall ▸ by simp))
          obtain ⟨hm₁, hproper⟩ := make_sound hg hi hbusy hc
          have hperm : List.Perm (((i, c) :: m₁.made).map Prod.fst ++ [] ++ m₁.queue)
              (m₁.made.map Prod.fst ++ [i] ++ m₁.queue) := by
            rw [List.append_nil]
            exact (List.perm_append_singleton i _).symm.append_right _
          have hnext : Sound g [] { m₁ with made := (i, c) :: m₁.made } :=
            ⟨hm₁.like, hm₁.taken, hperm.nodup_iff.mpr hm₁.nodup, fun j hj => hm₁.met j (hperm.mem_iff.mp hj),
              List.forall_mem_cons.mpr ⟨hproper, hm₁.proper⟩⟩
          exact ih hnext h

theorem whole_sound (hg : Treelike g root) {p : Part} (h : whole root ⟨g, [], [], []⟩ = .ok (p, m')) :
    Sound g [] m' ∧ p.collections.Sublist [root] := by
  have hstart : Sound g [] ⟨g, [], [], []⟩ := ⟨.refl g, nofun, List.nodup_nil, nofun, nofun⟩
  obtain ⟨p, m₁, hp, h⟩ := bind_eq_ok.mp h
  obtain ⟨hm₁, hsub, -⟩ := part_sound hg.taken_root hstart hp
  obtain ⟨_, _, hget, h⟩ := bind_eq_ok.mp h
  obtain ⟨rfl, rfl⟩ := get_eq_ok.mp hget
  obtain ⟨_, m₂, hall, h⟩ := bind_eq_ok.mp h
  obtain ⟨rfl, rfl⟩ := pure_eq_ok.mp h
  exact ⟨makeAll_sound hg hm₁ hall, hsub⟩

end Maker

theorem repeated_eq_nil {g : Graph} {root : Nat} {m : Making} {p : Part} (hg : Treelike g root)
    (hm : Sound g [] m) (hp : p.collections.Sublist [root]) : repeated p m.made = [] := by
  have hmade : (m.made.flatMap fun e => e.2.collections).Nodup := by
    refine List.nodup_flatMap.mpr ⟨fun e he => (hm.proper e he).nodup, ?_⟩
    have hkeys : (m.made.map (·.1)).Nodup := ((List.nodup_append.mp hm.nodup).1 |> List.nodup_append.mp).1
    refine (List.pairwise_map.mp hkeys).imp_of_mem fun {d e} hd he hne k hkd hke => hne ?_
    exact hg.owned_unique ((hm.proper d hd).owned k hkd) ((hm.proper e he).owned k hke)
  -- What is in two places is counted twice here.
  have hplaces : (p.collections ++ m.made.flatMap fun e => e.2.collections).Nodup := by
    refine List.nodup_append.mpr ⟨hp.nodup (List.nodup_singleton root), hmade, ?_⟩
    rintro k hk _ hk' rfl
    obtain ⟨e, he, hke⟩ := List.mem_flatMap.mp hk'
    rw [List.mem_singleton.mp (hp.subset hk)] at hke
    exact hg.not_owned_root ((hm.proper e he).owned _ hke)
  refine List.filter_eq_nil_iff.mpr fun i _ => ?_
  have hcount := List.nodup_iff_count_le_one.mp hplaces i
  simp only [decide_eq_true_eq, Nat.not_le]
  exact Nat.lt_succ_of_le hcount

section

variable {made : List (Nat × Collection)}
  (distinct : ∀ e ∈ made, ∀ es, e.2 = .map es → Scalar.Distinct (es.map (·.1)))

include distinct

theorem tree_nodeOf (fuel : Nat) :
    (∀ p, (nodeOf made [] fuel p).Tree) ∧ ∀ i, (nodeOfCollection made [] fuel i).Tree := by
  induction fuel with
  | zero => exact ⟨fun p => by rw [nodeOf]; exact .leaf _, fun i => by rw [nodeOfCollection]; exact .leaf _⟩
  | succ fuel ih =>
      refine ⟨fun p => ?_, fun i => ?_⟩
      · cases p with
        | scalar s =>
            rw [nodeOf]
            exact .leaf s
        | pair a b =>
            rw [nodeOf]
            exact .list (by simp [ih.1])
        | collection i =>
            rw [nodeOf]
            exact ih.2 i
      · rw [nodeOfCollection]
        split
        · refine .list fun n hn => ?_
          obtain ⟨p, -, rfl⟩ := List.mem_map.mp hn
          exact ih.1 p
        · rename_i es hes
          refine .map ?_ fun e he => ?_
          · rw [List.map_map]
            obtain ⟨_, _, hmade, -⟩ := List.lookup_eq_some_iff.mp hes
            exact distinct (i, .map es) (hmade ▸ by simp) es rfl
          · obtain ⟨e, -, rfl⟩ := List.mem_map.mp he
            exact ih.1 e.2
        · exact .leaf _

end

def usesAlias (text : List Char) : Bool := (tokens text).1.any (· matches .reference _)

def usesMerge (text : List Char) : Bool :=
  match graphOf text with
  | .ok (_, g) => g.any fun
    | .mapping _ es => es.any fun e => g.tag e.1 = .merge
    | _ => false
  | .error _ => false

theorem treelike_of_graphOf {text : List Char} {root : Nat} {g : Graph} (haliases : usesAlias text = false)
    (hmerges : usesMerge text = false) (h : graphOf text = .ok (some root, g)) : Treelike g root where
  nodup := by
    refine graphOf_nodup h fun name hmem => ?_
    rw [usesAlias, Array.any_eq_false] at haliases
    obtain ⟨i, hi, heq⟩ := Array.mem_iff_getElem.mp hmem
    exact haliases i hi (heq ▸ rfl)
  merges i e he htag := by
    simp only [usesMerge, h, Array.any_eq_false] at hmerges
    rw [Graph.entries] at he
    split at he
    · rename_i hv
      obtain ⟨hi, heq⟩ := Array.getElem?_eq_some_iff.mp hv
      have hnone := hmerges i hi
      simp only [heq, List.any_eq_true, decide_eq_true_eq, not_exists, not_and] at hnone
      exact hnone e he htag
    · cases he

/-- A text without aliases and merge keys holds a tree. -/
theorem plain_of_read {text : List Char} {d : Document} (haliases : usesAlias text = false)
    (hmerges : usesMerge text = false) (h : read text = .ok d) : d.Plain := by
  unfold read at h
  cases hgraph : graphOf text with
  | error e =>
      rw [hgraph] at h
      cases h
  | ok r =>
      rw [hgraph] at h
      obtain ⟨_ | root, g⟩ := r
      · cases h
        exact ⟨rfl, .leaf _⟩
      · have hg := treelike_of_graphOf haliases hmerges hgraph
        change Except.bind (Maker.whole root ⟨g, [], [], []⟩) _ = _ at h
        cases hwhole : Maker.whole root ⟨g, [], [], []⟩ with
        | error e =>
            rw [hwhole] at h
            cases h
        | ok r =>
            obtain ⟨p, m⟩ := r
            rw [hwhole] at h
            obtain ⟨hm, hp⟩ := Maker.whole_sound hg hwhole
            cases h
            rw [documentOf, repeated_eq_nil hg hm hp]
            exact ⟨rfl, (tree_nodeOf (fun e he => (hm.proper e he).distinct) _).1 p⟩

end LedgerQuery.Yaml
