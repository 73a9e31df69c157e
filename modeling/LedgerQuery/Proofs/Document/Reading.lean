import LedgerQuery.Proofs.Document.Update
import LedgerQuery.Proofs.Json.Members
import LedgerQuery.Proofs.Shape.Reading
import Mathlib.Data.List.Forall2

namespace LedgerQuery

open Document

variable {α β ρ : Type}

variable {es : Entries} {table : Array Node}

/-- The entries of a mapping, as a shape reads them. -/
def Entries.views (table : Array Node) (es : Entries) : List (MapKey × View) :=
  es.map fun (k, x) => (k.mapKey, ⟨table, x⟩)

theorem valueUnder?_views (name : String) (es : Entries) :
    valueUnder? name (es.views table) = (es.get? (.text name)).map (View.mk table) := by
  induction es with
  | nil => rfl
  | cons e rest ih =>
      obtain ⟨k, x⟩ := e
      cases k with
      | text s =>
          change (if s = name then _ else valueUnder? name (Entries.views table rest)) = _
          by_cases hs : s = name <;> simp [Entries.get?, Scalar.sameKey_text, hs, ih]
      | _ =>
          change valueUnder? name (Entries.views table rest) = _
          simp [Entries.get?, Scalar.sameKey_text_right, ih]

theorem Shape.readEntry_eq_ok {read : View → Reading α} {k : Scalar} (hk : ∀ bs, k ≠ .bytes bs) {v : View}
    {p : String × α} (h : readEntry read (k.mapKey, v) = .ok p) : k = .text p.1 ∧ read v = .ok p.2 := by
  obtain ⟨g, a, hg, ha, rfl⟩ := Reading.apply_eq_ok.mp h
  rw [Reading.under_eq_ok] at ha
  cases k with
  | text s =>
      cases hg
      exact ⟨rfl, ha⟩
  | bytes bs => exact absurd rfl (hk bs)
  | _ => cases hg

abbrev ReadEntries (s : Shape α) (table : Array Node) : Entries → List (String × α) → Prop :=
  List.Forall₂ fun e p => e.1 = .text p.1 ∧ s.read (View.mk table e.2) = .ok p.2

theorem Shape.readEntries_of_all {s : Shape α} (text : ∀ k ∈ es.map (·.1), ∀ bs, k ≠ .bytes bs)
    {l : List (String × α)} (h : Reading.all ((es.views table).map (readEntry s.read)) = .ok l) : ReadEntries s table es l := by
  induction es generalizing l with
  | nil =>
      cases h
      exact .nil
  | cons e es ih =>
      obtain ⟨hkey, hkeys⟩ := List.forall_mem_cons.mp text
      obtain ⟨g, rest, hg, hrest, rfl⟩ := Reading.apply_eq_ok.mp h
      cases hentry : readEntry s.read (e.1.mapKey, View.mk table e.2) with
      | error fs =>
          rw [hentry] at hg
          cases hg
      | ok p =>
          rw [hentry] at hg
          cases hg
          exact .cons (readEntry_eq_ok hkey hentry) (ih hkeys hrest)

theorem ReadEntries.keys {s : Shape α} {l : List (String × α)} (h : ReadEntries s table es l) :
    es.map (·.1) = l.map fun p => .text p.1 := by
  induction h with
  | nil => rfl
  | cons hhead _ ih => rw [List.map_cons, List.map_cons, hhead.1, ih]

theorem ReadEntries.nodup {s : Shape α} {l : List (String × α)} (h : ReadEntries s table es l)
    (distinct : Scalar.Distinct (es.map (·.1))) : (l.map (·.1)).Nodup := by
  have hkeys : (es.map (·.1)).Nodup := by
    refine distinct.imp fun hne heq => ?_
    rw [heq, Scalar.sameKey_self] at hne
    cases hne
  rw [h.keys] at hkeys
  refine List.Nodup.of_map Scalar.text ?_
  rwa [List.map_map]

theorem ReadEntries.get? {s : Shape α} {l : List (String × α)} (h : ReadEntries s table es l)
    (hes : (Node.map es).Tree) {name : String} {a : α} (hmem : (name, a) ∈ l) :
    ∃ x, es.get? (.text name) = some x ∧ s.read (View.mk table x) = .ok a := by
  obtain ⟨x, hx, hread⟩ : ∃ x, (.text name, x) ∈ es ∧ s.read (View.mk table x) = .ok a := by
    clear hes
    induction h with
    | nil => cases hmem
    | cons hhead _ ih =>
        obtain rfl | hrest := List.mem_cons.mp hmem
        · exact ⟨_, hhead.1 ▸ List.mem_cons_self .., hhead.2⟩
        · obtain ⟨x, hx, hread⟩ := ih hrest
          exact ⟨x, List.mem_cons_of_mem _ hx, hread⟩
  cases hes with
  | map distinct _ => exact ⟨x, Entries.get?_of_mem distinct hx, hread⟩

theorem ReadEntries.mem_keys {s : Shape α} {l : List (String × α)} (h : ReadEntries s table es l)
    (hes : (Node.map es).Tree) {name : String} :
    name ∈ l.map (·.1) ↔ (es.get? (.text name)).isSome = true := by
  constructor
  · intro hname
    obtain ⟨⟨_, a⟩, hmem, rfl⟩ := List.mem_map.mp hname
    obtain ⟨x, hx, -⟩ := h.get? hes hmem
    rw [hx]
    rfl
  · intro hsome
    obtain ⟨x, hx⟩ := Option.isSome_iff_exists.mp hsome
    have hkey : Scalar.text name ∈ es.map (·.1) := List.mem_map.mpr ⟨_, Entries.text_mem_of_get? hx, rfl⟩
    rw [h.keys] at hkey
    obtain ⟨p, hp, heq⟩ := List.mem_map.mp hkey
    exact List.mem_map.mpr ⟨p, hp, Scalar.text.inj heq⟩

theorem Shape.exists_of_map_read {s : Shape α} {m : List (String × α)}
    (h : s.map.read (View.mk table (.map es)) = .ok m) : ∃ l, Reading.all ((es.views table).map (readEntry s.read)) = .ok l ∧
      l.foldl (fun m (k, a) => insert k a m) [] = m := by
  change (Reading.all ((es.views table).map (readEntry s.read))).map _ = _ at h
  cases hall : Reading.all ((es.views table).map (readEntry s.read)) with
  | ok l =>
      rw [hall] at h
      exact ⟨l, rfl, Except.ok.inj h⟩
  | error faults =>
      rw [hall] at h
      cases h

theorem Shape.map_read {s : Shape α} (distinct : Scalar.Distinct (es.map (·.1)))
    (text : ∀ k ∈ es.map (·.1), ∀ bs, k ≠ .bytes bs) {m : List (String × α)}
    (h : s.map.read (View.mk table (.map es)) = .ok m) : ReadEntries s table es m ∧ (m.map (·.1)).Nodup := by
  obtain ⟨l, hall, rfl⟩ := exists_of_map_read h
  have hl := readEntries_of_all text hall
  have hnodup := hl.nodup distinct
  rw [foldl_insert_of_nodup (List.nil_append l ▸ hnodup)]
  exact ⟨hl, hnodup⟩

theorem Scalar.layer_ne_map {σ : Type} (s : Scalar) (entries : List (MapKey × σ)) : s.layer ≠ .map entries := by
  cases s with
  | bytes bs =>
      rw [layer]
      split <;> nofun
  | _ => nofun

theorem Document.View.layer_eq_map {n : Node} (hn : n.Tree) {entries : List (MapKey × View)}
    (h : (View.mk table n).layer = .map entries) : ∃ es : Entries, n = .map es ∧ entries = es.views table := by
  cases hn with
  | leaf s => exact absurd h (s.layer_ne_map entries)
  | list _ => cases h
  | map _ _ =>
      cases h
      exact ⟨_, rfl, rfl⟩

/-- A value that is read from what is at a path, or stands for what is not there. -/
def ReadsAt (table : Array Node) (n : Node) (s : Shape α) (usual : Option α) (path : List String) (a : α) :
    Prop :=
  match nodeAt? table path n with
  | some m => s.read (View.mk table m) = .ok a
  | none => usual = some a

section

variable {n : Node} {path : List String} {key : String} {s : Shape α} {usual : Option α} {a : α}

theorem ReadsAt.of_some {m : Node} (hm : nodeAt? table path n = some m) (h : s.read (View.mk table m) = .ok a) :
    ReadsAt table n s usual path a := by
  simpa only [ReadsAt, hm]

theorem ReadsAt.of_none (hm : nodeAt? table path n = none) (h : usual = some a) :
    ReadsAt table n s usual path a := by
  simpa only [ReadsAt, hm]

theorem ReadsAt.read_of_some (h : ReadsAt table n s usual path a) {m : Node}
    (hm : nodeAt? table path n = some m) : s.read (View.mk table m) = .ok a := by
  simpa only [ReadsAt, hm] using h

theorem ReadsAt.eq_of_none (h : ReadsAt table n s usual path a) (hm : nodeAt? table path n = none) :
    usual = some a := by
  simpa only [ReadsAt, hm] using h

theorem readsAt_iff : ReadsAt table n s usual path a ↔
    (∃ m, nodeAt? table path n = some m ∧ s.read (View.mk table m) = .ok a) ∨
      nodeAt? table path n = none ∧ usual = some a := by
  rw [ReadsAt]
  cases nodeAt? table path n <;> simp

theorem nodeAt?_concat (h : nodeAt? table path n = some (.map es)) (key : String) :
    nodeAt? table (path ++ [key]) n = es.get? (.text key) := by
  rw [nodeAt?_append, h, Option.bind_some, nodeAt?_map]
  exact Option.bind_fun_some _

theorem nodeAt?_concat_of_none (h : nodeAt? table path n = none) (key : String) :
    nodeAt? table (path ++ [key]) n = none := by
  rw [nodeAt?_append, h, Option.bind_none]

theorem readsAt_withDefault {get : ρ → α} {value : α} (h : nodeAt? table path n = some (.map es))
    (hread : (Fields.withDefault key s value get).read (es.views table) = .ok a) :
    ReadsAt table n s (some value) (path ++ [key]) a := by
  rw [ReadsAt, nodeAt?_concat h]
  simp only [Fields.withDefault, valueUnder?_views] at hread
  cases hx : es.get? (.text key) with
  | none =>
      rw [hx] at hread
      exact congrArg some (Except.ok.inj hread)
  | some x =>
      rw [hx] at hread
      exact Reading.under_eq_ok.mp hread

theorem readsAt_required {get : ρ → α} (h : nodeAt? table path n = some (.map es))
    (hread : (Fields.required key s get).read (es.views table) = .ok a) :
    ReadsAt table n s none (path ++ [key]) a := by
  rw [ReadsAt, nodeAt?_concat h]
  simp only [Fields.required, valueUnder?_views] at hread
  cases hx : es.get? (.text key) with
  | none =>
      rw [hx] at hread
      cases hread
  | some x =>
      rw [hx] at hread
      exact Reading.under_eq_ok.mp hread

theorem ReadsAt.record {name : String} {fields : Fields ρ ρ} {usual : Option ρ} {r : ρ} (hn : n.Tree)
    (h : ReadsAt table n (.record name fields) usual path r) :
    (∃ es : Entries, nodeAt? table path n = some (.map es) ∧ fields.read (es.views table) = .ok r) ∨
      nodeAt? table path n = none ∧ usual = some r := by
  refine (readsAt_iff.mp h).imp_left ?_
  rintro ⟨m, hm, hread⟩
  simp only [Shape.record] at hread
  split at hread
  · rename_i entries hlayer
    obtain ⟨es, rfl, rfl⟩ := View.layer_eq_map (tree_nodeAt? hn hm) hlayer
    exact ⟨es, hm, hread⟩
  · cases hread

theorem ReadsAt.entries {usual : Option (List (String × α))} {m : List (String × α)} (hn : n.Tree)
    (text : ∀ es, nodeAt? table path n = some (.map es) → ∀ k ∈ es.map (·.1), ∀ bs, k ≠ .bytes bs)
    (h : ReadsAt table n s.map usual path m) :
    (∃ es : Entries, nodeAt? table path n = some (.map es) ∧ ReadEntries s table es m ∧ (m.map (·.1)).Nodup) ∨
      nodeAt? table path n = none ∧ usual = some m := by
  refine (readsAt_iff.mp h).imp_left ?_
  rintro ⟨k, hk, hread⟩
  have htree := tree_nodeAt? hn hk
  obtain ⟨es, rfl⟩ : ∃ es, k = .map es := by
    simp only [Shape.map] at hread
    split at hread
    · rename_i entries hlayer
      obtain ⟨es, rfl, -⟩ := View.layer_eq_map htree hlayer
      exact ⟨es, rfl⟩
    · cases hread
  cases htree with
  | map distinct _ => exact ⟨es, hk, Shape.map_read distinct (text es hk) hread⟩

end

end LedgerQuery
