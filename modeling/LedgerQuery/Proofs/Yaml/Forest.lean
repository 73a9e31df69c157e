import LedgerQuery.Yaml.Grammar
import Mathlib.Data.List.Nodup
import Mathlib.Data.List.Infix

namespace LedgerQuery.Yaml

namespace Vertex

def children : Vertex → List Nat
  | .scalar _ _ => []
  | .sequence _ items => items
  | .mapping _ entries => entries.flatMap fun e => [e.1, e.2]

end Vertex

def edges (vs : List Vertex) : List Nat := vs.flatMap Vertex.children

theorem edges_append (vs ws : List Vertex) : edges (vs ++ ws) = edges vs ++ edges ws := List.flatMap_append

/-- The reader has gone on from `p` to `p'`. The nodes that it has made meanwhile are in one place at most, and
the `roots` among them are in none. -/
structure Grown (p p' : Progress) (roots : List Nat) : Prop where
  rest : p'.rest <:+ p.rest
  nodes : ∃ new, p'.nodes.toList = p.nodes.toList ++ new ∧ (roots ++ edges new).Nodup ∧
    ∀ i ∈ roots ++ edges new, p.nodes.size ≤ i ∧ i < p'.nodes.size

namespace Grown

variable {p p₁ p₂ : Progress} {r r₁ r₂ : List Nat}

theorem quiet (hrest : p₁.rest <:+ p.rest) (hnodes : p₁.nodes = p.nodes) : Grown p p₁ [] where
  rest := hrest
  nodes := ⟨[], by simp [hnodes], List.nodup_nil, List.forall_mem_nil _⟩

theorem refl (p : Progress) : Grown p p [] := quiet List.suffix_rfl rfl

theorem size_le (h : Grown p p₁ r) : p.nodes.size ≤ p₁.nodes.size := by
  obtain ⟨new, hnew, -⟩ := h.nodes
  have hlength := congrArg List.length hnew
  simp only [Array.length_toList, List.length_append] at hlength
  omega

theorem clean (h : Grown p p₁ r) (hp : ∀ name, .reference name ∉ p.rest) : ∀ name, .reference name ∉ p₁.rest :=
  fun name hmem => hp name (h.rest.subset hmem)

theorem trans (h₁ : Grown p p₁ r₁) (h₂ : Grown p₁ p₂ r₂) : Grown p p₂ (r₁ ++ r₂) where
  rest := h₂.rest.trans h₁.rest
  nodes := by
    obtain ⟨new₁, hnew₁, hnodup₁, hrange₁⟩ := h₁.nodes
    obtain ⟨new₂, hnew₂, hnodup₂, hrange₂⟩ := h₂.nodes
    have hperm : (r₁ ++ r₂ ++ edges (new₁ ++ new₂)).Perm ((r₁ ++ edges new₁) ++ (r₂ ++ edges new₂)) := by
      rw [edges_append, List.append_assoc, List.append_assoc, ← List.append_assoc r₂,
        ← List.append_assoc (edges new₁)]
      exact (List.perm_append_comm.append_right _).append_left _
    refine ⟨new₁ ++ new₂, by rw [hnew₂, hnew₁, List.append_assoc], ?_, fun i hi => ?_⟩
    · rw [hperm.nodup_iff, List.nodup_append]
      refine ⟨hnodup₁, hnodup₂, ?_⟩
      rintro i hi _ hi' rfl
      have h₁ := hrange₁ i hi
      have h₂ := hrange₂ i hi'
      omega
    · have hle₁ := h₁.size_le
      have hle₂ := h₂.size_le
      obtain hi | hi := List.mem_append.mp (hperm.mem_iff.mp hi)
      · have h₁ := hrange₁ i hi
        omega
      · have h₂ := hrange₂ i hi
        omega

theorem after (h₂ : Grown p₁ p₂ r) (h₁ : Grown p p₁ []) : Grown p p₂ r := h₁.trans h₂

theorem leaf {v : Vertex} (hv : v.children = []) (anchors : List (String × Nat)) :
    Grown p { p with nodes := p.nodes.push v, anchors } [p.nodes.size] where
  rest := List.suffix_rfl
  nodes := by
    refine ⟨[v], by simp, ?_, ?_⟩ <;> simp [edges, hv]

theorem fill {u v : Vertex} {anchors : List (String × Nat)}
    (h : Grown { p with nodes := p.nodes.push u, anchors } p₁ r) (hv : v.children.Perm r) :
    Grown p { p₁ with nodes := p₁.nodes.setIfInBounds p.nodes.size v } [p.nodes.size] where
  rest := h.rest
  nodes := by
    obtain ⟨new, hnew, hnodup, hrange⟩ := h.nodes
    have hperm : (edges (v :: new)).Perm (r ++ edges new) := hv.append_right _
    -- What it is filled with was made after it.
    have hlt (i) (hi : i ∈ edges (v :: new)) : p.nodes.size + 1 ≤ i ∧ i < p₁.nodes.size := by
      simpa using hrange i (hperm.mem_iff.mp hi)
    have hsize := h.size_le
    simp only [Array.size_push] at hsize
    refine ⟨v :: new, ?_, List.nodup_cons.mpr ⟨fun hmem => ?_, hperm.nodup_iff.mpr hnodup⟩, ?_⟩
    · rw [Array.toList_setIfInBounds, hnew]
      simp
    · have := hlt _ hmem
      omega
    · intro i hi
      obtain rfl | hi := List.mem_cons.mp hi
      · simp only [Array.size_setIfInBounds]
        omega
      · have := hlt i hi
        simp only [Array.size_setIfInBounds]
        omega

end Grown

section

variable {σ ε α β : Type} {s s' : σ}

theorem bind_eq_ok {x : StateT σ (Except ε) α} {f : α → StateT σ (Except ε) β} {b : β} :
    (x >>= f) s = .ok (b, s') ↔ ∃ a s₁, x s = .ok (a, s₁) ∧ f a s₁ = .ok (b, s') := by
  change Except.bind (x s) (fun r => f r.1 r.2) = _ ↔ _
  cases x s with
  | error e =>
      refine iff_of_false nofun ?_
      rintro ⟨_, _, ⟨⟩, _⟩
  | ok r =>
      refine ⟨fun h => ⟨r.1, r.2, rfl, h⟩, ?_⟩
      rintro ⟨_, _, ⟨⟩, h⟩
      exact h

theorem pure_eq_ok {a b : α} : (pure a : StateT σ (Except ε) α) s = .ok (b, s') ↔ a = b ∧ s = s' := by
  change Except.ok (a, s) = .ok (b, s') ↔ _
  rw [Except.ok.injEq, Prod.mk.injEq]

theorem throw_ne_ok {e : ε} {a : α} : (throw e : StateT σ (Except ε) α) s ≠ .ok (a, s') := nofun

theorem get_eq_ok {t : σ} : (get : StateT σ (Except ε) σ) s = .ok (t, s') ↔ s = t ∧ s = s' := pure_eq_ok

theorem lift_eq_ok {x : Except ε α} {a : α} :
    (liftM x : StateT σ (Except ε) α) s = .ok (a, s') ↔ x = .ok a ∧ s = s' := by
  change Except.bind x (fun a => .ok (a, s)) = _ ↔ _
  cases x with
  | error e => exact iff_of_false nofun fun h => nomatch h.1
  | ok b =>
      change Except.ok (b, s) = .ok (a, s') ↔ _
      rw [Except.ok.injEq, Except.ok.injEq, Prod.mk.injEq]

theorem modify_eq_ok {g : σ → σ} {u : PUnit} :
    (modify g : StateT σ (Except ε) PUnit) s = .ok (u, s') ↔ g s = s' := by
  change Except.ok (u, g s) = .ok (u, s') ↔ _
  rw [Except.ok.injEq, Prod.mk.injEq, eq_self_iff_true, true_and]

end

namespace Reader

variable {p p' : Progress}

theorem grown_peek {t : Token} (h : peek p = .ok (t, p')) : p = p' ∧ t ∈ p.rest := by
  obtain ⟨q, _, hget, h⟩ := bind_eq_ok.mp h
  obtain ⟨rfl, rfl⟩ := get_eq_ok.mp hget
  cases hrest : p.rest with
  | nil =>
      rw [hrest] at h
      cases h
  | cons t rest =>
      rw [hrest] at h
      obtain ⟨rfl, rfl⟩ := pure_eq_ok.mp h
      exact ⟨rfl, List.mem_cons_self ..⟩

theorem grown_advance {u : Unit} (h : advance p = .ok (u, p')) : Grown p p' [] := by
  obtain rfl := modify_eq_ok.mp h
  exact .quiet (List.tail_suffix _) rfl

theorem grown_take? {expected : Token → Bool} {b : Bool} (h : take? expected p = .ok (b, p')) :
    Grown p p' [] := by
  obtain ⟨t, _, hpeek, h⟩ := bind_eq_ok.mp h
  obtain ⟨rfl, -⟩ := grown_peek hpeek
  split at h
  · obtain ⟨_, _, hadvance, h⟩ := bind_eq_ok.mp h
    obtain ⟨-, rfl⟩ := pure_eq_ok.mp h
    exact grown_advance hadvance
  · obtain ⟨-, rfl⟩ := pure_eq_ok.mp h
    exact .refl p

theorem grown_take {expected : Token → Bool} {u : Unit} (h : take expected p = .ok (u, p')) : Grown p p' [] := by
  obtain ⟨b, _, htake, h⟩ := bind_eq_ok.mp h
  split at h
  · obtain ⟨-, rfl⟩ := pure_eq_ok.mp h
    exact grown_take? htake
  · cases h

theorem grown_add {anchor : Option String} {v : Vertex} {i : Nat} (h : add anchor v p = .ok (i, p')) :
    i = p.nodes.size ∧ ∃ anchors, p' = { p with nodes := p.nodes.push v, anchors } := by
  cases h
  exact ⟨rfl, _, rfl⟩

theorem grown_anchor? {name : Option String} (h : anchor? p = .ok (name, p')) : Grown p p' [] := by
  obtain ⟨t, _, hpeek, h⟩ := bind_eq_ok.mp h
  obtain ⟨rfl, -⟩ := grown_peek hpeek
  cases t with
  | anchor name =>
      obtain ⟨_, _, hadvance, h⟩ := bind_eq_ok.mp h
      obtain ⟨-, rfl⟩ := pure_eq_ok.mp h
      exact grown_advance hadvance
  | _ =>
      obtain ⟨-, rfl⟩ := pure_eq_ok.mp h
      exact .refl p

theorem expand_eq_ok {t : RawTag} {text : String} (h : expand t p = .ok (text, p')) : p = p' := by
  obtain ⟨handle, suffix⟩ := t
  cases handle with
  | none => exact (pure_eq_ok.mp h).2
  | some handle =>
      obtain ⟨q, _, hget, h⟩ := bind_eq_ok.mp h
      obtain ⟨rfl, rfl⟩ := get_eq_ok.mp hget
      cases hexpansion : p.handles.lookup handle with
      | none =>
          rw [hexpansion] at h
          cases h
      | some expansion =>
          rw [hexpansion] at h
          exact (pure_eq_ok.mp h).2

theorem grown_tag? {tag : Option String} (h : tag? p = .ok (tag, p')) : Grown p p' [] := by
  obtain ⟨t, _, hpeek, h⟩ := bind_eq_ok.mp h
  obtain ⟨rfl, -⟩ := grown_peek hpeek
  cases t with
  | tag t =>
      obtain ⟨_, _, hadvance, h⟩ := bind_eq_ok.mp h
      obtain ⟨_, _, hexpand, h⟩ := bind_eq_ok.mp h
      obtain ⟨-, rfl⟩ := pure_eq_ok.mp h
      obtain rfl := expand_eq_ok hexpand
      exact grown_advance hadvance
  | _ =>
      obtain ⟨-, rfl⟩ := pure_eq_ok.mp h
      exact .refl p

theorem grown_properties {props : Option String × Option String} (h : properties p = .ok (props, p')) :
    Grown p p' [] := by
  obtain ⟨anchor, _, hanchor, h⟩ := bind_eq_ok.mp h
  have hfirst := grown_anchor? hanchor
  cases anchor with
  | some name =>
      obtain ⟨tag, _, htag, h⟩ := bind_eq_ok.mp h
      obtain ⟨-, rfl⟩ := pure_eq_ok.mp h
      exact hfirst.trans (grown_tag? htag)
  | none =>
      obtain ⟨tag, _, htag, h⟩ := bind_eq_ok.mp h
      have hsecond := hfirst.trans (grown_tag? htag)
      cases tag with
      | some tag =>
          obtain ⟨_, _, hanchor, h⟩ := bind_eq_ok.mp h
          obtain ⟨-, rfl⟩ := pure_eq_ok.mp h
          exact hsecond.trans (grown_anchor? hanchor)
      | none =>
          obtain ⟨-, rfl⟩ := pure_eq_ok.mp h
          exact hsecond

theorem checkAnchor_eq_ok {anchor : Option String} {u : Unit} (h : checkAnchor anchor p = .ok (u, p')) :
    p = p' := by
  cases anchor with
  | some name =>
      obtain ⟨_, _, hget, h⟩ := bind_eq_ok.mp h
      obtain ⟨-, rfl⟩ := get_eq_ok.mp hget
      split at h
      · cases h
      · exact (pure_eq_ok.mp h).2
  | none => exact (pure_eq_ok.mp h).2

theorem grown_add_leaf {anchor : Option String} {v : Vertex} {i : Nat} (hv : v.children = [])
    (h : add anchor v p = .ok (i, p')) : Grown p p' [i] := by
  obtain ⟨rfl, anchors, rfl⟩ := grown_add h
  exact .leaf hv anchors

theorem grown_absent {i : Nat} (h : absent p = .ok (i, p')) : Grown p p' [i] := grown_add_leaf rfl h

theorem grown_empty {anchor tag : Option String} {i : Nat} (h : node.empty anchor tag p = .ok (i, p')) :
    Grown p p' [i] := by
  unfold node.empty at h
  split at h
  · exact grown_add_leaf rfl h
  · cases h

/-- A step that makes nodes, of which the given ones are left for others to hold, if no reference is met. -/
def Grows {α : Type} (x : Reader α) (roots : α → List Nat) : Prop :=
  ∀ p a p', x p = .ok (a, p') → (∀ name, .reference name ∉ p.rest) → Grown p p' (roots a)

theorem grows_sequence {items : Reader (List Nat)} (hitems : Grows items id) (anchor tag : Option String) :
    Grows (node.sequence anchor tag items) fun i => [i] := by
  intro p i p' h hp
  obtain ⟨j, _, hadd, h⟩ := bind_eq_ok.mp h
  obtain ⟨rfl, anchors, rfl⟩ := grown_add hadd
  obtain ⟨is, _, his, h⟩ := bind_eq_ok.mp h
  obtain ⟨_, _, hfill, h⟩ := bind_eq_ok.mp h
  obtain ⟨rfl, rfl⟩ := pure_eq_ok.mp h
  obtain rfl := modify_eq_ok.mp hfill
  exact (hitems _ _ _ his hp).fill (.refl _)

theorem grows_mapping {entries : Reader (List (Nat × Nat))}
    (hentries : Grows entries fun es => es.flatMap fun e => [e.1, e.2]) (anchor tag : Option String) :
    Grows (node.mapping anchor tag entries) fun i => [i] := by
  intro p i p' h hp
  obtain ⟨j, _, hadd, h⟩ := bind_eq_ok.mp h
  obtain ⟨rfl, anchors, rfl⟩ := grown_add hadd
  obtain ⟨es, _, hes, h⟩ := bind_eq_ok.mp h
  obtain ⟨_, _, hfill, h⟩ := bind_eq_ok.mp h
  obtain ⟨rfl, rfl⟩ := pure_eq_ok.mp h
  obtain rfl := modify_eq_ok.mp hfill
  exact (hentries _ _ _ hes hp).fill (.refl _)

structure Grow (fuel : Nat) : Prop where
  node : ∀ block indentless, Grows (node fuel block indentless) fun i => [i]
  nodeUnless : ∀ closes block indentless, Grows (nodeUnless closes fuel block indentless) fun i => [i]
  blockItems : Grows (blockItems fuel) id
  looseItems : Grows (looseItems fuel) id
  blockEntries : Grows (blockEntries fuel) fun es => es.flatMap fun e => [e.1, e.2]
  flowItems : ∀ first, Grows (flowItems fuel first) id
  flowEntries : ∀ first, Grows (flowEntries fuel first) fun es => es.flatMap fun e => [e.1, e.2]

section

variable {fuel : Nat}

theorem grows_node (ih : Grow fuel) (block indentless : Bool) :
    Grows (node (fuel + 1) block indentless) fun i => [i] := by
  intro p i p' h hp
  rw [node] at h
  obtain ⟨t, _, hpeek, h⟩ := bind_eq_ok.mp h
  obtain ⟨rfl, ht⟩ := grown_peek hpeek
  split at h
  · exact absurd ht (hp _)
  · obtain ⟨⟨anchor, tag⟩, p₁, hproperties, h⟩ := bind_eq_ok.mp h
    have hp₁ := grown_properties hproperties
    obtain ⟨next, _, hpeek, h⟩ := bind_eq_ok.mp h
    obtain ⟨rfl, -⟩ := grown_peek hpeek
    obtain ⟨_, _, hcheck, h⟩ := bind_eq_ok.mp h
    obtain rfl := checkAnchor_eq_ok hcheck
    refine .after ?_ hp₁
    have hclean := hp₁.clean hp
    -- A collection is read after the token that opens it, if there is one.
    have hopened {x : Reader Nat} (hx : Grows x fun i => [i])
        (h : (advance >>= fun _ => x) p₁ = .ok (i, p')) : Grown p₁ p' [i] := by
      obtain ⟨_, p₂, hadvance, h⟩ := bind_eq_ok.mp h
      have hp₂ := grown_advance hadvance
      exact hp₂.trans (hx _ _ _ h (hp₂.clean hclean))
    split at h
    · exact hopened (fun _ _ _ h _ => grown_add_leaf rfl h) h
    · exact hopened (grows_sequence (ih.flowItems true) anchor tag) h
    · exact hopened (grows_mapping (ih.flowEntries true) anchor tag) h
    · split at h
      · exact grows_sequence ih.looseItems anchor tag _ _ _ h hclean
      · exact grown_empty h
    · split at h
      · exact hopened (grows_sequence ih.blockItems anchor tag) h
      · exact grown_empty h
    · split at h
      · exact hopened (grows_mapping ih.blockEntries anchor tag) h
      · exact grown_empty h
    · exact grown_empty h

theorem grows_nodeUnless (ih : Grow fuel) (closes : Token → Bool) (block indentless : Bool) :
    Grows (nodeUnless closes (fuel + 1) block indentless) fun i => [i] := by
  intro p i p' h hp
  rw [nodeUnless] at h
  obtain ⟨t, _, hpeek, h⟩ := bind_eq_ok.mp h
  obtain ⟨rfl, -⟩ := grown_peek hpeek
  split at h
  · exact grown_absent h
  · exact ih.node block indentless _ _ _ h hp

theorem grows_cons {x : Reader Nat} {y : Reader (List Nat)} (hx : Grows x fun i => [i]) (hy : Grows y id) :
    Grows (x >>= fun i => y >>= fun is => pure (i :: is)) id := by
  intro p is p' h hp
  obtain ⟨i, p₁, hi, h⟩ := bind_eq_ok.mp h
  obtain ⟨is, p₂, his, h⟩ := bind_eq_ok.mp h
  obtain ⟨rfl, rfl⟩ := pure_eq_ok.mp h
  have hp₁ := hx _ _ _ hi hp
  exact hp₁.trans (hy _ _ _ his (hp₁.clean hp))

theorem grows_blockItems (ih : Grow fuel) : Grows (blockItems (fuel + 1)) id := by
  intro p is p' h hp
  rw [blockItems] at h
  obtain ⟨b, p₁, htake, h⟩ := bind_eq_ok.mp h
  have hp₁ := grown_take? htake
  split at h
  · exact hp₁.trans (grows_cons (ih.nodeUnless _ true false) ih.blockItems _ _ _ h (hp₁.clean hp))
  · obtain ⟨_, _, htake, h⟩ := bind_eq_ok.mp h
    obtain ⟨rfl, rfl⟩ := pure_eq_ok.mp h
    exact hp₁.trans (grown_take htake)

theorem grows_looseItems (ih : Grow fuel) : Grows (looseItems (fuel + 1)) id := by
  intro p is p' h hp
  rw [looseItems] at h
  obtain ⟨b, p₁, htake, h⟩ := bind_eq_ok.mp h
  have hp₁ := grown_take? htake
  split at h
  · exact hp₁.trans (grows_cons (ih.nodeUnless _ true false) ih.looseItems _ _ _ h (hp₁.clean hp))
  · obtain ⟨rfl, rfl⟩ := pure_eq_ok.mp h
    exact hp₁

theorem grown_pair (ih : Grow fuel) {closes closes' mark : Token → Bool} {block indentless : Bool} {β : Type}
    {g : Nat → Nat → Reader β} {b : β}
    (h : (nodeUnless closes fuel block indentless >>= fun k => take? mark >>= fun t =>
      if t = true then nodeUnless closes' fuel block indentless >>= g k else absent >>= g k) p = .ok (b, p'))
    (hp : ∀ name, .reference name ∉ p.rest) :
    ∃ k v p₁, Grown p p₁ [k, v] ∧ g k v p₁ = .ok (b, p') := by
  obtain ⟨k, p₁, hk, h⟩ := bind_eq_ok.mp h
  have hp₁ := ih.nodeUnless _ _ _ _ _ _ hk hp
  obtain ⟨t, p₂, htake, h⟩ := bind_eq_ok.mp h
  have hp₂ := hp₁.trans (grown_take? htake)
  split at h
  · obtain ⟨v, p₃, hv, h⟩ := bind_eq_ok.mp h
    exact ⟨k, v, p₃, hp₂.trans (ih.nodeUnless _ _ _ _ _ _ hv (hp₂.clean hp)), h⟩
  · obtain ⟨v, p₃, hv, h⟩ := bind_eq_ok.mp h
    exact ⟨k, v, p₃, hp₂.trans (grown_absent hv), h⟩

theorem grown_consEntry {y : Reader (List (Nat × Nat))} (hy : Grows y fun es => es.flatMap fun e => [e.1, e.2])
    {k v : Nat} {p₁ : Progress} (hp₁ : Grown p p₁ [k, v]) (hp : ∀ name, .reference name ∉ p.rest)
    {es : List (Nat × Nat)} (h : (y >>= fun es => pure ((k, v) :: es)) p₁ = .ok (es, p')) :
    Grown p p' (es.flatMap fun e => [e.1, e.2]) := by
  obtain ⟨rest, _, hrest, h⟩ := bind_eq_ok.mp h
  obtain ⟨rfl, rfl⟩ := pure_eq_ok.mp h
  exact hp₁.trans (hy _ _ _ hrest (hp₁.clean hp))

theorem grows_blockEntries (ih : Grow fuel) :
    Grows (blockEntries (fuel + 1)) fun es => es.flatMap fun e => [e.1, e.2] := by
  intro p es p' h hp
  rw [blockEntries] at h
  obtain ⟨b, p₁, htake, h⟩ := bind_eq_ok.mp h
  have hp₁ := grown_take? htake
  refine .after ?_ hp₁
  split at h
  · obtain ⟨k, v, p₂, hp₂, h⟩ := grown_pair ih h (hp₁.clean hp)
    exact grown_consEntry ih.blockEntries hp₂ (hp₁.clean hp) h
  · obtain ⟨_, _, htake, h⟩ := bind_eq_ok.mp h
    obtain ⟨rfl, rfl⟩ := pure_eq_ok.mp h
    exact grown_take htake

theorem grown_between {first : Bool} {mark : Token → Bool} {β : Type} {x : Reader β} {b : β}
    (h : (if (!first) = true then take mark >>= fun _ => x else x) p = .ok (b, p')) :
    ∃ p₁, Grown p p₁ [] ∧ x p₁ = .ok (b, p') := by
  split at h
  · obtain ⟨_, p₁, htake, h⟩ := bind_eq_ok.mp h
    exact ⟨p₁, grown_take htake, h⟩
  · exact ⟨p, .refl p, h⟩

theorem grows_flowItems (ih : Grow fuel) (first : Bool) : Grows (flowItems (fuel + 1) first) id := by
  intro p is p' h hp
  rw [flowItems] at h
  obtain ⟨b, p₁, htake, h⟩ := bind_eq_ok.mp h
  have hp₁ := grown_take? htake
  split at h
  · obtain ⟨rfl, rfl⟩ := pure_eq_ok.mp h
    exact hp₁
  · obtain ⟨p₂, hp₂, h⟩ := grown_between h
    have hp₂ := hp₁.trans hp₂
    refine .after ?_ hp₂
    have hclean := hp₂.clean hp
    obtain ⟨t, _, hpeek, h⟩ := bind_eq_ok.mp h
    obtain ⟨rfl, -⟩ := grown_peek hpeek
    split at h
    · obtain ⟨_, _, hadvance, h⟩ := bind_eq_ok.mp h
      obtain ⟨rfl, rfl⟩ := pure_eq_ok.mp h
      exact grown_advance hadvance
    · obtain ⟨_, p₃, hadvance, h⟩ := bind_eq_ok.mp h
      have hp₃ := grown_advance hadvance
      obtain ⟨i, _, hadd, h⟩ := bind_eq_ok.mp h
      obtain ⟨rfl, anchors, rfl⟩ := grown_add hadd
      obtain ⟨k, v, p₄, hp₄, h⟩ := grown_pair ih h (hp₃.clean hclean)
      obtain ⟨_, _, hfill, h⟩ := bind_eq_ok.mp h
      obtain rfl := modify_eq_ok.mp hfill
      have hpair := hp₃.trans (hp₄.fill (v := .mapping .map [(k, v)]) (.refl _))
      obtain ⟨rest, _, hrest, h⟩ := bind_eq_ok.mp h
      obtain ⟨rfl, rfl⟩ := pure_eq_ok.mp h
      exact hpair.trans (ih.flowItems false _ _ _ hrest (hpair.clean hclean))
    · exact grows_cons (ih.node false false) (ih.flowItems false) _ _ _ h hclean

theorem grows_flowEntries (ih : Grow fuel) (first : Bool) :
    Grows (flowEntries (fuel + 1) first) fun es => es.flatMap fun e => [e.1, e.2] := by
  intro p es p' h hp
  rw [flowEntries] at h
  obtain ⟨b, p₁, htake, h⟩ := bind_eq_ok.mp h
  have hp₁ := grown_take? htake
  split at h
  · obtain ⟨rfl, rfl⟩ := pure_eq_ok.mp h
    exact hp₁
  · obtain ⟨p₂, hp₂, h⟩ := grown_between h
    have hp₂ := hp₁.trans hp₂
    refine .after ?_ hp₂
    have hclean := hp₂.clean hp
    obtain ⟨t, _, hpeek, h⟩ := bind_eq_ok.mp h
    obtain ⟨rfl, -⟩ := grown_peek hpeek
    split at h
    · obtain ⟨_, _, hadvance, h⟩ := bind_eq_ok.mp h
      obtain ⟨rfl, rfl⟩ := pure_eq_ok.mp h
      exact grown_advance hadvance
    · obtain ⟨_, p₃, hadvance, h⟩ := bind_eq_ok.mp h
      have hp₃ := grown_advance hadvance
      obtain ⟨k, v, p₄, hp₄, h⟩ := grown_pair ih h (hp₃.clean hclean)
      exact grown_consEntry (ih.flowEntries false) (hp₃.trans hp₄) hclean h
    · obtain ⟨k, p₃, hk, h⟩ := bind_eq_ok.mp h
      have hp₃ := ih.node false false _ _ _ hk hclean
      obtain ⟨v, p₄, hv, h⟩ := bind_eq_ok.mp h
      exact grown_consEntry (ih.flowEntries false) (hp₃.trans (grown_absent hv)) hclean h

end

theorem grow (fuel : Nat) : Grow fuel := by
  induction fuel with
  | zero =>
      have hnone {α : Type} (roots : α → List Nat) : Grows (throw .grammar : Reader α) roots :=
        fun _ _ _ h _ => absurd h throw_ne_ok
      refine ⟨fun _ _ => ?_, fun _ _ _ => ?_, ?_, ?_, ?_, fun _ => ?_, fun _ => ?_⟩
      · rw [node]
        exact hnone _
      · rw [nodeUnless]
        exact hnone _
      · rw [blockItems]
        exact hnone _
      · rw [looseItems]
        exact hnone _
      · rw [blockEntries]
        exact hnone _
      · rw [flowItems]
        exact hnone _
      · rw [flowEntries]
        exact hnone _
  | succ fuel ih =>
      exact ⟨grows_node ih, grows_nodeUnless ih, grows_blockItems ih, grows_looseItems ih, grows_blockEntries ih,
        grows_flowItems ih, grows_flowEntries ih⟩

theorem grown_directives {fuel : Nat} {versioned : Bool} {u : Unit}
    (h : directives fuel versioned p = .ok (u, p')) : Grown p p' [] := by
  induction fuel generalizing versioned p with
  | zero => cases h
  | succ fuel ih =>
      rw [directives] at h
      obtain ⟨t, _, hpeek, h⟩ := bind_eq_ok.mp h
      obtain ⟨rfl, -⟩ := grown_peek hpeek
      split at h
      · obtain ⟨_, p₁, hadvance, h⟩ := bind_eq_ok.mp h
        refine .after ?_ (grown_advance hadvance)
        split at h
        · split at h
          · cases h
          · exact ih h
        · obtain ⟨_, _, hget, h⟩ := bind_eq_ok.mp h
          obtain ⟨rfl, rfl⟩ := get_eq_ok.mp hget
          split at h
          · cases h
          · obtain ⟨_, _, hmodify, h⟩ := bind_eq_ok.mp h
            obtain rfl := modify_eq_ok.mp hmodify
            exact (ih h).after (.quiet List.suffix_rfl rfl)
        · exact ih h
      · obtain ⟨-, rfl⟩ := pure_eq_ok.mp h
        exact .refl p

theorem grown_documentStart {fuel : Nat} {u : Unit} (h : documentStart fuel p = .ok (u, p')) : Grown p p' [] := by
  obtain ⟨_, p₁, hdirectives, h⟩ := bind_eq_ok.mp h
  obtain ⟨_, p₂, htake, h⟩ := bind_eq_ok.mp h
  obtain rfl := modify_eq_ok.mp h
  exact (grown_directives hdirectives).trans ((grown_take htake).trans (.quiet List.suffix_rfl rfl))

theorem grown_skipEnds {fuel : Nat} {u : Unit} (h : skipEnds fuel p = .ok (u, p')) : Grown p p' [] := by
  induction fuel generalizing p with
  | zero =>
      obtain ⟨-, rfl⟩ := pure_eq_ok.mp h
      exact .refl p
  | succ fuel ih =>
      obtain ⟨b, p₁, htake, h⟩ := bind_eq_ok.mp h
      refine .after ?_ (grown_take? htake)
      split at h
      · exact ih h
      · obtain ⟨-, rfl⟩ := pure_eq_ok.mp h
        exact .refl _

theorem grown_streamEnd {fuel : Nat} {u : Unit} (h : streamEnd fuel p = .ok (u, p')) : Grown p p' [] := by
  obtain ⟨_, p₁, hskip, h⟩ := bind_eq_ok.mp h
  obtain ⟨t, _, hpeek, h⟩ := bind_eq_ok.mp h
  obtain ⟨rfl, -⟩ := grown_peek hpeek
  split at h
  · obtain ⟨-, rfl⟩ := pure_eq_ok.mp (show (pure () : Reader Unit) p₁ = .ok (u, p') from h)
    exact grown_skipEnds hskip
  · obtain ⟨_, _, -, h⟩ := bind_eq_ok.mp
      (show (documentStart fuel >>= fun _ => throw Error.secondDocument) p₁ = .ok (u, p') from h)
    cases h

theorem grows_document (fuel : Nat) : Grows (document fuel) Option.toList := by
  intro p root p' h hp
  obtain ⟨t, _, hpeek, h⟩ := bind_eq_ok.mp h
  obtain ⟨rfl, -⟩ := grown_peek hpeek
  -- The node, once the document has been opened, and the end of the stream.
  have hnode {x : Reader Nat} (hx : Grows x fun i => [i]) {p₁ : Progress}
      (h : (x >>= fun i => streamEnd fuel >>= fun _ => pure (some i)) p₁ = .ok (root, p'))
      (hp₁ : Grown p p₁ []) : Grown p p' root.toList := by
    obtain ⟨i, p₂, hi, h⟩ := bind_eq_ok.mp h
    obtain ⟨_, _, hend, h⟩ := bind_eq_ok.mp h
    obtain ⟨rfl, rfl⟩ := pure_eq_ok.mp h
    exact hp₁.trans ((hx _ _ _ hi (hp₁.clean hp)).trans (grown_streamEnd hend))
  split at h
  · obtain ⟨rfl, rfl⟩ := pure_eq_ok.mp h
    exact .refl p
  · obtain ⟨_, p₁, hstart, h⟩ := bind_eq_ok.mp h
    exact hnode ((grow fuel).nodeUnless _ true false) h (grown_documentStart hstart)
  · obtain ⟨_, p₁, hstart, h⟩ := bind_eq_ok.mp h
    exact hnode ((grow fuel).nodeUnless _ true false) h (grown_documentStart hstart)
  · obtain ⟨_, _, hmodify, h⟩ := bind_eq_ok.mp h
    obtain rfl := modify_eq_ok.mp hmodify
    exact hnode ((grow fuel).node true false) h (.quiet List.suffix_rfl rfl)

end Reader

/-- In the nodes of a text without references each is in one place at most, and the root in none. -/
theorem graphOf_nodup {text : List Char} {root : Nat} {g : Graph} (h : graphOf text = .ok (some root, g))
    (href : ∀ name, .reference name ∉ (tokens text).1) : (root :: edges g.toList).Nodup := by
  unfold graphOf at h
  generalize tokens text = stream at h href
  obtain ⟨ts, cut⟩ := stream
  cases hrun : (Reader.document (4 * ts.size + 8)).run ⟨ts.toList, cut, [], [], #[]⟩ with
  | error e =>
      simp only [hrun] at h
      cases h
  | ok r =>
      simp only [hrun] at h
      obtain ⟨found, p'⟩ := r
      cases h
      have hgrown := Reader.grows_document _ _ _ _ hrun
        (fun name hmem => href name (Array.mem_toList_iff.mp hmem))
      obtain ⟨new, hnew, hnodup, -⟩ := hgrown.nodes
      rw [hnew]
      exact hnodup

end LedgerQuery.Yaml
