import LedgerQuery.Proofs.Document.Way
import LedgerQuery.Proofs.Settings.Override
import LedgerQuery.Proofs.Text.LowerCase
import Mathlib.Data.List.Forall2

namespace LedgerQuery

open Text (Alike)

/-- No mapping in the node has two keys that differ in the case of letters only. -/
inductive Node.CaseDistinct : Node → Prop
  | leaf (s : Scalar) : CaseDistinct (.leaf s)
  | list {items : List Node} (inside : ∀ n ∈ items, CaseDistinct n) : CaseDistinct (.list items)
  | map {es : Entries} (distinct : ∀ s t, .text s ∈ es.map (·.1) → .text t ∈ es.map (·.1) → Alike s t → s = t)
      (inside : ∀ e ∈ es, CaseDistinct e.2) : CaseDistinct (.map es)
  | shared (i : Nat) : CaseDistinct (.shared i)

namespace Document

/-- The second document has the text under the keys, and is the first elsewhere: no key is added. -/
structure Overwrites (keys : List String) (text : String) (d d' : Document) : Prop where
  table : d'.table = d.table
  root : Node.Replaced (.leaf (.text text)) keys d.root d'.root
  value : d'.get? keys = some (.leaf (.text text))
  others : ∀ path, Apart keys path → d'.get? path = d.get? path
  keys : ∀ path, d'.keysAt? path = if keys <+: path then none else d.keysAt? path

/-- The second document has under the keys what the first has, and a key more in a mapping on the way. -/
structure Misses (keys : List String) (d d' : Document) : Prop where
  value : d'.get? keys = d.get? keys
  added : ∃ before key after others, keys = before ++ key :: after ∧ d.keysAt? before = some others ∧
    d'.keysAt? before = some (others ++ [.text (Text.lower key)])

section

variable {keys tokens : List String} {text : String} {d : Document} {n m : Node}

theorem map_lower_of_alike (h : List.Forall₂ Alike keys tokens) : tokens.map Text.lower = keys.map Text.lower := by
  induction h with
  | nil => rfl
  | cons hhead _ ih => rw [List.map_cons, List.map_cons, ih, hhead]

theorem exists_first_capital (h : ∃ k ∈ keys, Text.lower k ≠ k) : ∃ before key after,
    keys = before ++ key :: after ∧ before.map Text.lower = before ∧ Text.lower key ≠ key := by
  have hsome : (keys.find? fun k => Text.lower k != k).isSome = true := by simpa using h
  obtain ⟨key, hfind⟩ := Option.isSome_iff_exists.mp hsome
  obtain ⟨hkey, before, after, hkeys, hbefore⟩ := List.find?_eq_some_iff_append.mp hfind
  refine ⟨before, key, after, hkeys, ?_, by simpa using hkey⟩
  exact (List.map_congr_left fun k hk => by simpa using hbefore k hk).trans (List.map_id _)

theorem caseDistinct_of_way {path : List String} (h : n.CaseDistinct) (way : n.Way path m) : m.CaseDistinct := by
  induction way with
  | here n => exact h
  | under found _ ih =>
      cases h with
      | map _ inside =>
          obtain ⟨_, -, hmem⟩ := Entries.mem_of_get? found
          exact ih (inside _ hmem)

theorem overwrites_of_replaced {root : Node} (h : Node.Replaced (.leaf (.text text)) keys d.root root) :
    d.Overwrites keys text ⟨root, d.table⟩ where
  table := rfl
  root := h
  value := by
    have hvalue := h.nodeAt?_append d.table []
    rwa [List.append_nil] at hvalue
  others _ apart := h.nodeAt?_of_apart apart
  keys path := by
    split
    · rename_i hprefix
      obtain ⟨rest, rfl⟩ := hprefix
      exact (nodeKeys?_congr (h.nodeAt?_append d.table rest)).trans (nodeKeys?_leaf rest _)
    · rename_i hprefix
      exact h.nodeKeys?_of_not_prefix hprefix

theorem overwrites_set (way : d.root.Way keys m) (hkeys : keys ≠ []) :
    d.Overwrites keys text (d.set (.leaf (.text text)) keys) := by
  obtain ⟨before, key, rfl⟩ := (List.eq_nil_or_concat' keys).resolve_left hkeys
  obtain ⟨_, hbefore, hkey⟩ := way.split
  obtain ⟨es, old, rfl, found, -⟩ := hkey.exists_of_cons
  obtain ⟨root, hset, hreplaced⟩ :=
    set_along (x := .leaf (.text text)) hbefore (List.cons_ne_nil key []) rfl
  rw [hset]
  exact overwrites_of_replaced (hreplaced.append hbefore (.under found (.here _)))

theorem lower_new {es : Entries} {key : String} (distinct : (Node.map es).CaseDistinct)
    (found : es.get? (.text key) = some m) (hkey : Text.lower key ≠ key) :
    ∀ k ∈ es.map (·.1), k.sameKey (.text (Text.lower key)) = false := by
  intro k hk
  refine Entries.sameKey_of_ne fun heq => hkey ?_
  cases distinct with
  | map hdistinct _ =>
      have hmem : .text key ∈ es.map (·.1) := List.mem_map_of_mem (Entries.text_mem_of_get? found)
      exact hdistinct _ _ (heq ▸ hk) hmem (Text.alike_lower key)

theorem misses_set (way : d.root.Way keys m) (distinct : d.root.CaseDistinct) (h : ∃ k ∈ keys, Text.lower k ≠ k) :
    d.Misses keys (d.set (.leaf (.text text)) (keys.map Text.lower)) := by
  obtain ⟨before, key, after, rfl, hbefore, hkey⟩ := exists_first_capital h
  obtain ⟨_, hway, hrest⟩ := way.split
  obtain ⟨es, old, rfl, found, -⟩ := hrest.exists_of_cons
  have hnew := lower_new (caseDistinct_of_way distinct hway) found hkey
  obtain ⟨y, hput⟩ := Entries.set_new (Entries.get?_of_new hnew) d.table (.leaf (.text text))
    (after.map Text.lower)
  obtain ⟨root, hset, hreplaced⟩ := set_along hway (List.cons_ne_nil _ _) (congrArg Prod.snd hput)
  rw [hput] at hreplaced
  rw [List.map_append, List.map_cons, hbefore, hset]
  refine ⟨?_, before, key, after, es.map (·.1), rfl, ?_, ?_⟩
  · calc nodeAt? d.table (before ++ key :: after) root
        = nodeAt? d.table (key :: after) (.map (es.put (.text (Text.lower key)) y)) := hreplaced.nodeAt?_append _ _
      _ = nodeAt? d.table (key :: after) (.map es) := nodeAt?_put_of_ne hkey after
      _ = nodeAt? d.table (before ++ key :: after) d.root := (hway.nodeAt?_append _ _).symm
  · have hkeys := nodeKeys?_congr (hway.nodeAt?_append d.table [])
    rwa [List.append_nil] at hkeys
  · have hkeys := nodeKeys?_congr (hreplaced.nodeAt?_append d.table [])
    rwa [List.append_nil, nodeKeys?_map, Entries.map_fst_put, Scalar.addKey_of_new hnew] at hkeys

theorem override?_eq_set {n : Naming} {name : String} (text : String) (delimited : n.delimiter ≠ "")
    (htokens : (n.suffix? name).map n.tokens = some tokens) {es : Entries} (hroot : d.root = .map es) :
    d.override? n [(name, text)] = .ok (d.set (.leaf (.text text)) (tokens.map Text.lower)) := by
  obtain ⟨suffix, hsuffix, rfl⟩ := Option.map_eq_some_iff.mp htokens
  have hentries : d.entries? = some es := by rw [entries?, hroot]; rfl
  have hpath : n.path? name = some ((n.tokens suffix).map Text.lower) := by rw [Naming.path?, hsuffix]; rfl
  simp [override?, override, applyVariable, hsuffix, delimited, hentries, hpath]

/-- A variable with keys of the document in its name, in any letters, sets what is under them, and only that, if they
are in small letters; and else it leaves that as it is, and adds a key beside one that it does not match. -/
theorem override?_spelled (n : Naming) (delimited : n.delimiter ≠ "") (name text : String)
    (htokens : (n.suffix? name).map n.tokens = some tokens) (alike : List.Forall₂ Alike keys tokens)
    (way : d.root.Way keys m) :
    ∃ d', d.override? n [(name, text)] = .ok d' ∧ ((∀ k ∈ keys, Text.lower k = k) → d.Overwrites keys text d') ∧
      (d.root.CaseDistinct → (∃ k ∈ keys, Text.lower k ≠ k) → d.Misses keys d') := by
  have hkeys : keys ≠ [] := by
    rintro rfl
    cases alike
    obtain ⟨suffix, -, hnil⟩ := Option.map_eq_some_iff.mp htokens
    exact Naming.pieces_ne_nil _ _ _ (List.map_eq_nil_iff.mp hnil)
  obtain ⟨key, rest, hcons⟩ := List.exists_cons_of_ne_nil hkeys
  obtain ⟨es, _, hroot, -⟩ := (hcons ▸ way).exists_of_cons
  refine ⟨_, override?_eq_set text delimited htokens hroot, fun hsmall => ?_, fun distinct hcapital => ?_⟩
  · have hpath : tokens.map Text.lower = keys :=
      (map_lower_of_alike alike).trans ((List.map_congr_left hsmall).trans (List.map_id _))
    rw [hpath]
    exact overwrites_set way hkeys
  · rw [map_lower_of_alike alike]
    exact misses_set way distinct hcapital

end

def hostSettings (host : String) : Document :=
  .ofNode (.map [(.text "hosts", .map [(.text host, .map [(.text "base_url", .leaf (.text "http://a"))])])])

theorem way_hostSettings (host : String) :
    (hostSettings host).root.Way ["hosts", host, "base_url"] (.leaf (.text "http://a")) :=
  .under rfl (.under (if_pos (Scalar.sameKey_self _)) (.under rfl (.here _)))

def nodeVariable : String := "APP__HOSTS__NODE__BASE_URL"

theorem tokens_nodeVariable : ((Naming.usual "APP").suffix? nodeVariable).map (Naming.usual "APP").tokens =
    some ["HOSTS", "NODE", "BASE_URL"] := by
  decide +kernel

theorem small_host_overwritten : ∃ d',
    (hostSettings "node").override? (.usual "APP") [(nodeVariable, "http://b")] = .ok d' ∧
      (hostSettings "node").Overwrites ["hosts", "node", "base_url"] "http://b" d' := by
  obtain ⟨d', hd', overwrites, -⟩ := override?_spelled (.usual "APP") (by decide) _ "http://b"
    tokens_nodeVariable (by decide +kernel) (way_hostSettings "node")
  exact ⟨d', hd', overwrites (by decide +kernel)⟩

/-- The same variable for a host that begins with a capital: the address is not set, and another host is added. -/
theorem capital_host_missed : (hostSettings "Node").root.CaseDistinct ∧
    (hostSettings "Node").root.Way ["hosts", "Node", "base_url"] (.leaf (.text "http://a")) ∧
      List.Forall₂ Alike ["hosts", "Node", "base_url"] ["HOSTS", "NODE", "BASE_URL"] ∧
        ∃ d', (hostSettings "Node").override? (.usual "APP") [(nodeVariable, "http://b")] = .ok d' ∧
          d'.get? ["hosts", "Node", "base_url"] = some (.leaf (.text "http://a")) ∧
            (hostSettings "Node").keysAt? ["hosts"] = some [.text "Node"] ∧
              d'.keysAt? ["hosts"] = some [.text "Node", .text "node"] := by
  have hset := override?_eq_set "http://b" (by decide) tokens_nodeVariable (rfl : (hostSettings "Node").root = _)
  have hpath : ["HOSTS", "NODE", "BASE_URL"].map Text.lower = ["hosts", "node", "base_url"] := by decide +kernel
  rw [hpath] at hset
  refine ⟨?_, way_hostSettings "Node", by decide +kernel, _, hset, rfl, rfl, rfl⟩
  have hsole (key : String) (n : Node) (h : n.CaseDistinct) : (Node.map [(.text key, n)]).CaseDistinct :=
    .map (by simp) (by simpa using h)
  exact hsole _ _ (hsole _ _ (hsole _ _ (.leaf _)))

end Document

end LedgerQuery
