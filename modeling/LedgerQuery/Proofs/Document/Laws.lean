import LedgerQuery.Proofs.Document.Order
import LedgerQuery.Proofs.Document.Way

namespace LedgerQuery

namespace Entries

/-- The entries of what is somewhere: none, if it is no mapping or if nothing is there. -/
def inside : Option Node → Entries
  | some (.map es) => es
  | _ => []

/-- The second entries are the first but for what is under the key, which comes last if it is new. -/
structure Keeps (key : String) (es es' : Entries) : Prop where
  others : es'.off key = es.off key
  keys : es'.map (·.1) = if (es.get? (.text key)).isSome then es.map (·.1) else es.map (·.1) ++ [.text key]

section

variable {es : Entries} {path before after : List String} {key : String}

theorem sameKey_of_absent {key : Scalar} (h : es.get? key = none) : ∀ k ∈ es.map (·.1), k.sameKey key = false := by
  induction es with
  | nil => exact List.forall_mem_nil _
  | cons e es ih =>
      obtain ⟨k, y⟩ := e
      rw [get?] at h
      split at h
      · cases h
      · rename_i hk
        exact List.forall_mem_cons.mpr ⟨Bool.eq_false_iff.mpr hk, ih h⟩

theorem keeps_put (key : String) (x : Node) (es : Entries) : Keeps key es (es.put (.text key) x) := by
  refine ⟨off_put_self key x es, ?_⟩
  cases hfound : es.get? (.text key) with
  | none => rw [map_fst_put, Scalar.addKey_of_new (sameKey_of_absent hfound), Option.isSome_none, if_neg nofun]
  | some m => rw [map_fst_put_of_found hfound, Option.isSome_some, if_pos rfl]

theorem Inline.ne_nil (h : Inline path es) : path ≠ [] := by
  cases h <;> exact List.cons_ne_nil _ _

theorem Inline.keeps (h : Inline (key :: after) es) (table : Array Node) (x : Node) :
    Keeps key es (set table x (key :: after) es).1 := by
  cases h with
  | last => exact keeps_put key x es
  | under inline _ =>
      rw [set_step inline]
      exact keeps_put key _ es

theorem inside_nodeAt?_below (inline : ∀ i, es.get? (.text key) ≠ some (.shared i)) (table : Array Node)
    (path : List String) : inside (Document.nodeAt? table path (.map (es.below key))) =
      inside (Document.nodeAt? table (key :: path) (.map es)) := by
  rw [Document.nodeAt?_map]
  cases path with
  | nil =>
      rw [below]
      rcases es.get? (.text key) with _ | (_ | _ | _ | _) <;> rfl
  | cons next path => rw [Document.nodeAt?_below inline (List.cons_ne_nil next path)]

theorem nodeAt?_set_before (h : Inline (before ++ key :: after) es) (table : Array Node) (x : Node) :
    Inline (key :: after) (inside (Document.nodeAt? table before (.map es))) ∧
      Document.nodeAt? table before (.map (set table x (before ++ key :: after) es).1) =
        some (.map (set table x (key :: after) (inside (Document.nodeAt? table before (.map es)))).1) := by
  induction before generalizing es with
  | nil => exact ⟨h, rfl⟩
  | cons name before ih =>
      obtain ⟨next, rest, hrest⟩ : ∃ next rest, before ++ key :: after = next :: rest :=
        List.exists_cons_of_ne_nil (List.append_ne_nil_of_right_ne_nil before (List.cons_ne_nil key after))
      rw [List.cons_append, hrest] at h ⊢
      cases h with
      | under inline below =>
          rw [← inside_nodeAt?_below inline, set_step inline, Document.nodeAt?_put_self, ← hrest]
          exact ih (hrest ▸ below)

theorem inline_put_map (name : String) (fs es : Entries) (i : Nat) :
    (es.put (.text name) (.map fs)).get? (.text name) ≠ some (.shared i) := by
  rw [get?_put_self]
  nofun

theorem Inline.again (h : Inline path es) (table : Array Node) (x : Node) : Inline path (set table x path es).1 := by
  induction h with
  | last name es => exact .last name _
  | under inline _ ih =>
      rw [set_step inline]
      exact .under (inline_put_map _ _ _) (by rwa [below_put_self])

theorem set_set (h : Inline path es) (table : Array Node) (x y : Node) :
    (set table y path (set table x path es).1).1 = (set table y path es).1 := by
  induction h with
  | last name es => exact put_put name x y es
  | under inline _ ih =>
      rw [set_step inline, set_step (inline_put_map _ _ _), below_put_self, ih, put_put, set_step inline]

end

end Entries

namespace Document

/-- The root of the document, and all that the way to the path leads through, stands in one place only. -/
def Inline (d : Document) (path : List String) : Prop := ∃ es, d.root = .map es ∧ Entries.Inline path es

/-- The second document is the first with the node at the path. -/
structure Updates (path : List String) (x : Node) (d d' : Document) : Prop where
  value : d'.get? path = some x
  others : ∀ other, Apart path other → d'.get? other = d.get? other
  /-- What is no mapping on the way, or not there, makes room for a mapping with the next key alone. -/
  way : ∀ before key after, path = before ++ key :: after →
    ∃ es, d'.get? before = some (.map es) ∧ Entries.Keeps key (Entries.inside (d.get? before)) es

section

variable {d : Document} {path : List String}

theorem Plain.inline {es : Entries} (plain : d.Plain) (root : d.root = .map es) (hpath : path ≠ []) : d.Inline path :=
  ⟨es, root, Entries.inline_of_tree (root ▸ plain.tree) hpath⟩

theorem Inline.set_eq {es : Entries} (h : Entries.Inline path es) (root : d.root = .map es) (x : Node) :
    d.set x path = ⟨.map (Entries.set d.table x path es).1, d.table⟩ := set_of_stays root (h.stays d.table x)

theorem Inline.updates (h : d.Inline path) (x : Node) : d.Updates path x (d.set x path) := by
  obtain ⟨es, root, inline⟩ := h
  rw [Inline.set_eq inline root]
  refine ⟨nodeAt?_set_self inline, fun other apart => ?_, fun before key after hpath => ?_⟩
  · rw [get?, get?, root]
    exact nodeAt?_set_of_apart inline apart
  · subst hpath
    obtain ⟨hinline, hbefore⟩ := Entries.nodeAt?_set_before inline d.table x
    rw [get?, get?, root]
    exact ⟨_, hbefore, hinline.keeps d.table x⟩

theorem Inline.again (h : d.Inline path) (x : Node) : (d.set x path).Inline path := by
  obtain ⟨es, root, inline⟩ := h
  rw [Inline.set_eq inline root]
  exact ⟨_, rfl, inline.again d.table x⟩

theorem Inline.set_set (h : d.Inline path) (x y : Node) : (d.set x path).set y path = d.set y path := by
  obtain ⟨es, root, inline⟩ := h
  rw [Inline.set_eq inline root, Inline.set_eq (inline.again d.table x) rfl, Inline.set_eq inline root,
    Entries.set_set inline]

theorem Inline.set?_eq (h : d.Inline path) (x : Node) : d.set? x path = .ok (d.set x path) := by
  obtain ⟨es, root, inline⟩ := h
  have hentries : d.entries? = some es := by rw [entries?, root]; rfl
  rw [set?, if_neg inline.ne_nil, hentries]
  rfl

/-- In a document that has nothing in two places anything can be set at any path below the root, and set again. -/
theorem set?_lawful {es : Entries} (plain : d.Plain) (root : d.root = .map es) (hpath : path ≠ []) (x : Node) :
    ∃ d', d.set? x path = .ok d' ∧ d.Updates path x d' ∧ ∀ y, d'.set? y path = d.set? y path := by
  have inline := plain.inline root hpath
  refine ⟨d.set x path, inline.set?_eq x, inline.updates x, fun y => ?_⟩
  rw [(inline.again x).set?_eq, inline.set?_eq, inline.set_set]

end

def listedHost : Document :=
  .ofNode (.map [(.text "hosts", .map [(.text "a", .list [.leaf .null]), (.number (.int 7), .leaf (.text "b"))])])

theorem plain_listedHost : listedHost.Plain := by
  have hlist : (Node.list [.leaf .null]).Tree := .list (List.forall_mem_singleton.mpr (.leaf _))
  have hhosts : (Node.map [(.text "a", .list [.leaf .null]), (.number (.int 7), .leaf (.text "b"))]).Tree := by
    refine .map (List.pairwise_pair.mpr (by decide)) (List.forall_mem_cons.mpr ⟨hlist, ?_⟩)
    exact List.forall_mem_singleton.mpr (.leaf _)
  exact ⟨rfl, .map (List.pairwise_singleton _ _) (List.forall_mem_singleton.mpr hhosts)⟩

theorem listed_host_lawful : listedHost.Plain ∧ ∃ d',
    listedHost.set? (.leaf (.text "http://a")) ["hosts", "a", "base_url"] = .ok d' ∧
      listedHost.Updates ["hosts", "a", "base_url"] (.leaf (.text "http://a")) d' ∧
        (∀ y, d'.set? y ["hosts", "a", "base_url"] = listedHost.set? y ["hosts", "a", "base_url"]) ∧
          d'.root = .map [(.text "hosts", .map [(.text "a", .map [(.text "base_url", .leaf (.text "http://a"))]),
            (.number (.int 7), .leaf (.text "b"))])] := by
  obtain ⟨d', hset, updates, again⟩ := set?_lawful plain_listedHost rfl (List.cons_ne_nil "hosts" ["a", "base_url"])
    (.leaf (.text "http://a"))
  refine ⟨plain_listedHost, d', hset, updates, again, ?_⟩
  cases hset
  rfl

end Document

end LedgerQuery
