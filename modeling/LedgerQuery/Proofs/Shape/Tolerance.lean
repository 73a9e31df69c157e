import LedgerQuery.Proofs.Json.Normal
import LedgerQuery.Proofs.Shape.Reading
import LedgerQuery.Proofs.Shape.Wire
import Mathlib.Logic.Relation

namespace LedgerQuery

variable {α β ρ : Type}

namespace Json

/-- One member is left out, at any depth. -/
inductive Omits : Json → Json → Prop
  | here {m : String × Json} {before after : List (String × Json)} :
      Omits (.object (before ++ m :: after)) (.object (before ++ after))
  | element {x y : Json} {before after : List Json} (inside : Omits x y) :
      Omits (.array (before ++ x :: after)) (.array (before ++ y :: after))
  | member {key : String} {x y : Json} {before after : List (String × Json)} (inside : Omits x y) :
      Omits (.object (before ++ (key, x) :: after)) (.object (before ++ (key, y) :: after))

def Pruned : Json → Json → Prop := Relation.ReflTransGen Omits

inductive Gains (key : String) (x : Json) : Trail → Json → Json → Prop
  | here {before after : List (String × Json)} :
      Gains key x [] (.object (before ++ after)) (.object (before ++ (key, x) :: after))
  | element {y z : Json} {before after : List Json} {i : Nat} {trail : Trail} (position : before.length = i)
      (inside : Gains key x trail y z) :
      Gains key x (.inr i :: trail) (.array (before ++ y :: after)) (.array (before ++ z :: after))
  | member {k : String} {y z : Json} {before after : List (String × Json)} {trail : Trail}
      (first : k ∉ before.map (·.1)) (inside : Gains key x trail y z) :
      Gains key x (.inl k :: trail) (.object (before ++ (k, y) :: after)) (.object (before ++ (k, z) :: after))

theorem Omits.keyed {x y : Json} (h : Omits x y) (hx : x.Keyed) : y.Keyed := by
  induction h with
  | @here m before after =>
      have hsublist : (before ++ after).Sublist (before ++ m :: after) :=
        (List.sublist_cons_self m after).append_left before
      obtain ⟨distinct, hmembers⟩ := keyed_object.mp hx
      exact keyed_object.mpr ⟨distinct.sublist (hsublist.map _), fun n hn => hmembers n (hsublist.subset hn)⟩
  | element inside ih =>
      simp only [keyed_array, List.forall_mem_append, List.forall_mem_cons] at hx ⊢
      exact ⟨hx.1, ih hx.2.1, hx.2.2⟩
  | member inside ih =>
      simp only [keyed_object, List.forall_mem_append, List.forall_mem_cons, List.map_append, List.map_cons] at hx ⊢
      exact ⟨hx.1, hx.2.1, ih hx.2.2.1, hx.2.2.2⟩

theorem Pruned.keyed {x y : Json} (h : Pruned x y) (hx : x.Keyed) : y.Keyed := by
  induction h with
  | refl => exact hx
  | tail _ step ih => exact step.keyed ih

/-- What is under a name when a member is left out somewhere: the same, nothing any more, or what is left of it. -/
inductive Lessens : Option Json → Option Json → Prop
  | same (o : Option Json) : Lessens o o
  | gone (x : Json) : Lessens (some x) none
  | inside {x y : Json} (keyed : x.Keyed) (omits : Omits x y) : Lessens (some x) (some y)

theorem Omits.lessens {ms : List (String × Json)} {y : Json} (h : Omits (.object ms) y) (keyed : (object ms).Keyed) :
    ∃ ns, y = .object ns ∧ ∀ key, Lessens (lookup? key ms) (lookup? key ns) := by
  generalize hx : Json.object ms = x at h
  cases h with
  | @here m before after =>
      cases hx
      obtain ⟨k, z⟩ := m
      refine ⟨_, rfl, fun key => ?_⟩
      by_cases hk : k = key
      · subst hk
        obtain ⟨hbefore, hafter⟩ := notMem_of_nodup_middle (keyed_object.mp keyed).1
        rw [lookup?_middle_self hbefore, lookup?_append, lookup?_eq_none.mpr hbefore, lookup?_eq_none.mpr hafter]
        exact .gone z
      · rw [lookup?_middle hk]
        exact .same _
  | element inside => cases hx
  | @member k z w before after inside =>
      cases hx
      refine ⟨_, rfl, fun key => ?_⟩
      by_cases hk : k = key
      · subst hk
        obtain ⟨hbefore, -⟩ := notMem_of_nodup_middle (keyed_object.mp keyed).1
        rw [lookup?_middle_self hbefore, lookup?_middle_self hbefore]
        exact .inside ((keyed_object.mp keyed).2 (k, z) (by simp)) inside
      · rw [lookup?_middle hk, lookup?_middle hk]
        exact .same _

end Json

/-- There is one more member at a record that is shown, which the record does not declare. -/
inductive Display.Grows (d : Display) (y z : Json) : Prop
  | intro {trail : Trail} {name key : String} {fields : List (String × Display)} {x : Json}
      (place : d.at? trail = some (.record name fields))
      (undeclared : key ∉ fields.map (·.1))
      (gains : Json.Gains key x trail y z) : Display.Grows d y z

inductive Display.Admits (d : Display) : Option Json → Option Json → Prop
  | same (o : Option Json) : Admits d o o
  | inside {y z : Json} (grows : d.Grows y z) : Admits d (some y) (some z)

theorem Display.lookup?_ofMembers (key : String) (ms : List (String × Json)) :
    lookup? key (ofMembers ms) = (lookup? key ms).map ofJson := by
  induction ms with
  | nil => rfl
  | cons m ms ih =>
      obtain ⟨k, x⟩ := m
      by_cases hk : k = key <;> simp [ofMembers, lookup?, hk, ih]

theorem Display.ofElements_getElem? (xs : List Json) (i : Nat) : (ofElements xs)[i]? = xs[i]?.map ofJson := by
  induction xs generalizing i with
  | nil => rfl
  | cons x xs ih => cases i <;> simp [ofElements, ih]

theorem Display.at?_ofJson_ne_record {trail : Trail} {j : Json} {name : String} {fields : List (String × Display)} :
    (ofJson j).at? trail ≠ some (.record name fields) := by
  induction trail generalizing j with
  | nil => cases j <;> nofun
  | cons step trail ih =>
      intro h
      cases step with
      | inl key =>
          cases j with
          | object ms =>
              obtain ⟨d, hd, hrest⟩ := Option.bind_eq_some_iff.mp h
              rw [lookup?_ofMembers, Option.map_eq_some_iff] at hd
              obtain ⟨x, -, rfl⟩ := hd
              exact ih hrest
          | _ => cases h
      | inr i =>
          cases j with
          | array xs =>
              obtain ⟨d, hd, hrest⟩ := Option.bind_eq_some_iff.mp h
              rw [ofElements_getElem?, Option.map_eq_some_iff] at hd
              obtain ⟨x, -, rfl⟩ := hd
              exact ih hrest
          | _ => cases h

theorem Json.Omits.layer_ne_null {x y : Json} (h : Omits x y) :
    Source.layer x ≠ .null ∧ Source.layer y ≠ .null := by
  cases h <;> exact ⟨nofun, nofun⟩

theorem Json.Gains.layer_ne_null {key : String} {x y z : Json} {trail : Trail} (h : Gains key x trail y z) :
    Source.layer y ≠ .null ∧ Source.layer z ≠ .null := by
  cases h <;> exact ⟨nofun, nofun⟩

theorem Display.Grows.layer_ne_null {d : Display} {y z : Json} (h : d.Grows y z) :
    Source.layer y ≠ .null ∧ Source.layer z ≠ .null := by
  obtain ⟨-, -, gains⟩ := h
  exact gains.layer_ne_null

theorem Display.Grows.record {name : String} {fields : List (String × Display)} {y z : Json}
    (h : (Display.record name fields).Grows y z) (distinct : (fields.map (·.1)).Nodup) :
    ∃ ms ns, y = .object ms ∧ z = .object ns ∧ ∀ e ∈ fields, e.2.Admits (lookup? e.1 ms) (lookup? e.1 ns) := by
  obtain @⟨trail, _, key, _, _, place, undeclared, gains⟩ := h
  cases gains with
  | here =>
      cases place
      refine ⟨_, _, rfl, rfl, fun e he => ?_⟩
      have hkey : key ≠ e.1 := by
        rintro rfl
        exact undeclared (List.mem_map_of_mem he)
      rw [lookup?_middle hkey]
      exact .same _
  | element position inside => cases place
  | @member k _ _ _ _ _ first inside =>
      obtain ⟨d, hd, place⟩ := Option.bind_eq_some_iff.mp place
      refine ⟨_, _, rfl, rfl, fun e he => ?_⟩
      by_cases hk : k = e.1
      · subst hk
        rw [lookup?_of_mem distinct he] at hd
        cases hd
        rw [lookup?_middle_self first, lookup?_middle_self first]
        exact .inside ⟨place, undeclared, inside⟩
      · rw [lookup?_middle hk, lookup?_middle hk]
        exact .same _

/-- Neither members that are left out nor members that no record declares keep a value from being read. -/
structure Shape.Tolerant (s : Shape α) : Prop where
  omitted : ∀ {p q : Json}, p.Keyed → p.Omits q → (∃ a, s.read p = .ok a) → ∃ a, s.read q = .ok a
  grown : ∀ {a : α} {p q : Json}, (s.display a).Grows p q → s.read q = s.read p

def Fields.readMembers (f : Fields ρ α) (ms : List (String × Json)) : Reading α :=
  f.read (ms.map fun (k, x) => (MapKey.text k, x))

structure Fields.Tolerant (f : Fields ρ α) : Prop where
  omitted : ∀ {ms ns : List (String × Json)}, (∀ key, Json.Lessens (lookup? key ms) (lookup? key ns)) →
    (∃ a, f.readMembers ms = .ok a) → ∃ a, f.readMembers ns = .ok a
  grown : ∀ {r : ρ} {ms ns : List (String × Json)},
    (∀ e ∈ f.display r, e.2.Admits (lookup? e.1 ms) (lookup? e.1 ns)) → f.readMembers ns = f.readMembers ms

theorem Reading.apply_succeeds {f : Reading (α → β)} {x : Reading α} :
    (∃ b, apply f x = .ok b) ↔ (∃ g, f = .ok g) ∧ ∃ a, x = .ok a := by
  cases f <;> cases x <;> simp [apply]

theorem Reading.under_succeeds {p : Place} {x : Reading α} : (∃ a, x.under p = .ok a) ↔ ∃ a, x = .ok a := by
  simp only [under_eq_ok]

theorem Reading.map_succeeds {f : α → β} {x : Reading α} : (∃ b, x.map f = .ok b) ↔ ∃ a, x = .ok a := by
  cases x <;> simp [Except.map]

theorem Reading.all_succeeds {l : List (Reading α)} : (∃ as, all l = .ok as) ↔ ∀ x ∈ l, ∃ a, x = .ok a := by
  induction l with
  | nil => simp [all]
  | cons x l ih => rw [all, apply_succeeds, map_succeeds, ih, List.forall_mem_cons]

namespace Shape

variable {s : Shape α}

theorem tolerant_of_leaf (object : ∀ ms, ¬∃ a, s.read (Json.object ms) = .ok a)
    (array : ∀ xs, ¬∃ a, s.read (Json.array xs) = .ok a)
    (leaf : ∀ a step trail, (s.display a).at? (step :: trail) = none)
    (plain : ∀ a name fields, s.display a ≠ .record name fields) : s.Tolerant where
  omitted _ omits reads := by
    cases omits with
    | here | member inside => exact absurd reads (object _)
    | element inside => exact absurd reads (array _)
  grown grows := by
    obtain @⟨trail, _, _, _, _, place, -, -⟩ := grows
    cases trail with
    | nil => exact absurd (Option.some.inj place) (plain _ _ _)
    | cons step trail =>
        rw [leaf] at place
        cases place

theorem text_tolerant : text.Tolerant := by
  refine tolerant_of_leaf (fun _ => nofun) (fun _ => nofun) (fun _ step _ => ?_) (fun _ => nofun)
  cases step <;> rfl

theorem int_tolerant : int.Tolerant := by
  refine tolerant_of_leaf (fun _ => nofun) (fun _ => nofun) (fun _ step _ => ?_) (fun _ => nofun)
  cases step <;> rfl

theorem bool_tolerant : bool.Tolerant := by
  refine tolerant_of_leaf (fun _ => nofun) (fun _ => nofun) (fun _ step _ => ?_) (fun _ => nofun)
  cases step <;> rfl

theorem metadata_tolerant : metadata.Tolerant where
  omitted keyed omits reads := by
    cases omits with
    | here | member inside => exact ⟨_, rfl⟩
    | element inside =>
        obtain ⟨_, ⟨⟩⟩ := reads
  grown grows := by
    obtain ⟨place, -, -⟩ := grows
    exact absurd place (@Display.at?_ofJson_ne_record _ (.object _) _ _)

theorem Tolerant.optional (h : s.Tolerant) : s.optional.Tolerant where
  omitted keyed omits reads := by
    obtain ⟨hp, hq⟩ := omits.layer_ne_null
    rw [optional_read_of_ne hp, Reading.map_succeeds] at reads
    rw [optional_read_of_ne hq, Reading.map_succeeds]
    exact h.omitted keyed omits reads
  grown := by
    intro o p q grows
    cases o with
    | none =>
        obtain ⟨place, -, -⟩ := grows
        exact absurd (Display.at?_null place) nofun
    | some a =>
        obtain ⟨hp, hq⟩ := grows.layer_ne_null
        rw [optional_read_of_ne hp, optional_read_of_ne hq, h.grown grows]

theorem list_reads {xs : List Json} :
    (∃ as, s.list.read (Json.array xs) = .ok as) ↔ ∀ x ∈ xs, ∃ a, s.read x = .ok a := by
  have hread : s.list.read (Json.array xs) = Reading.all (xs.zipIdx.map fun e => (s.read e.1).under (.index e.2)) :=
    rfl
  rw [hread, Reading.all_succeeds, List.forall_mem_map]
  simp only [Reading.under_succeeds]
  constructor
  · intro h x hx
    obtain ⟨i, hi, rfl⟩ := List.getElem_of_mem hx
    exact h (xs[i], i) (List.mk_mem_zipIdx_iff_getElem?.mpr (List.getElem?_eq_getElem hi))
  · intro h e he
    exact h e.1 (List.fst_mem_of_mem_zipIdx he)

theorem Tolerant.list (h : s.Tolerant) : s.list.Tolerant where
  omitted keyed omits reads := by
    cases omits with
    | here | member inside => obtain ⟨_, ⟨⟩⟩ := reads
    | element inside =>
        simp only [list_reads, Json.keyed_array, List.forall_mem_append, List.forall_mem_cons] at keyed reads ⊢
        exact ⟨reads.1, h.omitted keyed.2.1 inside reads.2.1, reads.2.2⟩
  grown := by
    rintro as p q ⟨place, undeclared, gains⟩
    cases gains with
    | here => cases place
    | member first inside => cases place
    | @element y z before after i _ position inside =>
        obtain ⟨d, hd, place⟩ := Option.bind_eq_some_iff.mp place
        rw [List.getElem?_map, Option.map_eq_some_iff] at hd
        obtain ⟨a, -, rfl⟩ := hd
        have hread : s.read z = s.read y := h.grown ⟨place, undeclared, inside⟩
        change Reading.all ((before ++ z :: after).zipIdx.map fun e => (s.read e.1).under (.index e.2)) =
          Reading.all ((before ++ y :: after).zipIdx.map fun e => (s.read e.1).under (.index e.2))
        simp only [List.zipIdx_append, List.zipIdx_cons, List.map_append, List.map_cons, hread]

theorem record_tolerant {name : String} {fields : Fields ρ ρ} (h : fields.Tolerant)
    (distinct : ∀ r, ((fields.display r).map (·.1)).Nodup) : (Shape.record name fields).Tolerant where
  omitted := by
    intro p q keyed omits reads
    cases p with
    | object ms =>
        obtain ⟨ns, rfl, lessens⟩ := omits.lessens keyed
        exact h.omitted lessens reads
    | _ => obtain ⟨_, ⟨⟩⟩ := reads
  grown := by
    intro r p q grows
    obtain ⟨ms, ns, rfl, rfl, admits⟩ := grows.record (distinct r)
    exact h.grown admits

end Shape

namespace Fields

theorem withDefault_readMembers {name : String} {s : Shape α} {value : α} {get : ρ → α} {ms : List (String × Json)} :
    (withDefault name s value get).readMembers ms =
      (lookup? name ms).elim (.ok value) fun x => (s.read x).under (.key name) := by
  simp only [readMembers, withDefault, valueUnder?_json]
  cases lookup? name ms <;> rfl

theorem withDefault_tolerant {name : String} {s : Shape α} {value : α} {get : ρ → α} (h : s.Tolerant) :
    (withDefault name s value get).Tolerant where
  omitted := by
    intro ms ns lessens reads
    have hname := lessens name
    rw [withDefault_readMembers] at reads ⊢
    generalize lookup? name ms = o, lookup? name ns = o' at hname reads
    cases hname with
    | same o => exact reads
    | gone x => exact ⟨value, rfl⟩
    | inside keyed omits =>
        rw [Option.elim_some, Reading.under_succeeds] at reads ⊢
        exact h.omitted keyed omits reads
  grown := by
    intro r ms ns admits
    have hname : (s.display (get r)).Admits (lookup? name ms) (lookup? name ns) :=
      admits (name, s.display (get r)) (List.mem_singleton_self _)
    rw [withDefault_readMembers, withDefault_readMembers]
    generalize lookup? name ms = o, lookup? name ns = o' at hname
    cases hname with
    | same o => rfl
    | inside grows => rw [Option.elim_some, Option.elim_some, h.grown grows]

theorem optional_tolerant {name : String} {s : Shape α} {get : ρ → Option α} (h : s.Tolerant) :
    (optional name s get).Tolerant := withDefault_tolerant h.optional

theorem Tolerant.seq {f : Fields ρ (α → β)} {x : Fields ρ α} (hf : f.Tolerant) (hx : x.Tolerant) :
    (f <*> x).Tolerant where
  omitted lessens reads := by
    obtain ⟨hfreads, hxreads⟩ := Reading.apply_succeeds.mp reads
    exact Reading.apply_succeeds.mpr ⟨hf.omitted lessens hfreads, hx.omitted lessens hxreads⟩
  grown := by
    intro r ms ns admits
    have hfread := hf.grown fun e he => admits e (List.mem_append_left _ he)
    have hxread := hx.grown fun e he => admits e (List.mem_append_right _ he)
    change Reading.apply (f.readMembers ns) (x.readMembers ns) = Reading.apply (f.readMembers ms) (x.readMembers ms)
    rw [hfread, hxread]

theorem start_tolerant (a : α) : (start a : Fields ρ α).Tolerant where
  omitted _ _ := ⟨a, rfl⟩
  grown _ := rfl

theorem Tolerant.map {f : Fields ρ α} {g : α → β} (h : f.Tolerant) : (g <$> f).Tolerant := (start_tolerant g).seq h

section

variable {name : String} {s : Shape α}

theorem Tolerant.withDefault {f : Fields ρ (α → β)} {value : α} {get : ρ → α} (hf : f.Tolerant) (h : s.Tolerant) :
    (f <*> withDefault name s value get).Tolerant := hf.seq (withDefault_tolerant h)

theorem Tolerant.optional {f : Fields ρ (Option α → β)} {get : ρ → Option α} (hf : f.Tolerant) (h : s.Tolerant) :
    (f <*> optional name s get).Tolerant := hf.seq (optional_tolerant h)

end

end Fields

namespace Shape

variable {s : Shape α}

/-- What any number of members make of a value that shows as the display, added one after another. -/
def Grown (s : Shape α) (a : α) : Json → Json → Prop := Relation.ReflTransGen (s.display a).Grows

theorem Tolerant.pruned (h : s.Tolerant) {p q : Json} {a : α} (keyed : p.Keyed) (reads : s.read p = .ok a)
    (pruned : p.Pruned q) : ∃ b, s.read q = .ok b := by
  induction pruned with
  | refl => exact ⟨a, reads⟩
  | tail earlier step ih => exact h.omitted (Json.Pruned.keyed earlier keyed) step ih

theorem Tolerant.read_grown (h : s.Tolerant) {p q : Json} {a : α} (reads : s.read p = .ok a) (grown : s.Grown a p q) :
    s.read q = .ok a := by
  induction grown with
  | refl => exact reads
  | tail _ step ih => rw [h.grown step, ih]

end Shape

end LedgerQuery
