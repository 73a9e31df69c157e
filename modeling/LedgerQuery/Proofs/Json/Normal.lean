import LedgerQuery.Json.Equality
import LedgerQuery.Proofs.Json.Members
import Mathlib.Data.List.Forall2

namespace LedgerQuery

/-- A number stands for its exact value, an object for what is under each key. -/
inductive NormalForm
  | null
  | bool (b : Bool)
  | number (v : Value)
  | string (s : String)
  | array (xs : List NormalForm)
  | object (members : String → Option NormalForm)

namespace Json

theorem induct {motive : Json → Prop} (null : motive .null) (bool : ∀ b, motive (.bool b))
    (number : ∀ n, motive (.number n)) (string : ∀ s, motive (.string s))
    (array : ∀ xs, (∀ x ∈ xs, motive x) → motive (.array xs))
    (object : ∀ ms, (∀ m ∈ ms, motive m.2) → motive (.object ms)) (j : Json) : motive j := by
  refine @Json.rec motive (fun xs => ∀ x ∈ xs, motive x) (fun ms => ∀ m ∈ ms, motive m.2)
    (fun m => motive m.2) null bool number string array object ?_ ?_ ?_ ?_ ?_ j
  · exact List.forall_mem_nil _
  · intro x xs hx hxs
    exact List.forall_mem_cons.mpr ⟨hx, hxs⟩
  · exact List.forall_mem_nil _
  · intro m ms hm hms
    exact List.forall_mem_cons.mpr ⟨hm, hms⟩
  · intro k x hx
    exact hx

mutual

def normal : Json → NormalForm
  | .null => .null
  | .bool b => .bool b
  | .number n => .number n.value
  | .string s => .string s
  | .array xs => .array (normalElements xs)
  | .object ms => .object (normalMembers ms)

def normalElements : List Json → List NormalForm
  | [] => []
  | x :: xs => normal x :: normalElements xs

def normalMembers : List (String × Json) → String → Option NormalForm
  | [], _ => none
  | (k, x) :: ms, key => if k = key then some (normal x) else normalMembers ms key

end

theorem normalElements_eq (xs : List Json) : normalElements xs = xs.map normal := by
  induction xs with
  | nil => rfl
  | cons x xs ih => rw [normalElements, ih, List.map_cons]

theorem normalMembers_eq (ms : List (String × Json)) (key : String) :
    normalMembers ms key = (lookup? key ms).map normal := by
  induction ms with
  | nil => rfl
  | cons m ms ih =>
      obtain ⟨k, x⟩ := m
      by_cases hk : k = key <;> simp [normalMembers, lookup?, hk, ih]

inductive Part : Json → Json → Prop
  | whole (x : Json) : Part x x
  | element {x y : Json} {xs : List Json} (mem : x ∈ xs) (inside : Part y x) : Part y (.array xs)
  | member {m : String × Json} {y : Json} {ms : List (String × Json)} (mem : m ∈ ms) (inside : Part y m.2) :
      Part y (.object ms)

def HasNan (j : Json) : Prop := ∃ n : Number, Part (.number n) j ∧ n.value = .nan

/-- No object has two members of one name. -/
def Keyed (j : Json) : Prop := ∀ ms, Part (.object ms) j → (ms.map (·.1)).Nodup

@[simp]
theorem hasNan_null : ¬HasNan .null := by
  rintro ⟨n, ⟨⟩, -⟩

@[simp]
theorem hasNan_bool (b : Bool) : ¬HasNan (.bool b) := by
  rintro ⟨n, ⟨⟩, -⟩

@[simp]
theorem hasNan_string (s : String) : ¬HasNan (.string s) := by
  rintro ⟨n, ⟨⟩, -⟩

@[simp]
theorem hasNan_number {n : Number} : HasNan (.number n) ↔ n.value = .nan := by
  constructor
  · rintro ⟨_, ⟨⟩, h⟩
    exact h
  · intro h
    exact ⟨n, .whole _, h⟩

@[simp]
theorem hasNan_array {xs : List Json} : HasNan (.array xs) ↔ ∃ x ∈ xs, x.HasNan := by
  constructor
  · rintro ⟨n, hn, h⟩
    cases hn with
    | element mem inside => exact ⟨_, mem, n, inside, h⟩
  · rintro ⟨x, mem, n, inside, h⟩
    exact ⟨n, .element mem inside, h⟩

@[simp]
theorem hasNan_object {ms : List (String × Json)} : HasNan (.object ms) ↔ ∃ m ∈ ms, m.2.HasNan := by
  constructor
  · rintro ⟨n, hn, h⟩
    cases hn with
    | member mem inside => exact ⟨_, mem, n, inside, h⟩
  · rintro ⟨m, mem, n, inside, h⟩
    exact ⟨n, .member mem inside, h⟩

@[simp]
theorem keyed_null : Keyed .null := by
  rintro ms ⟨⟩

@[simp]
theorem keyed_bool (b : Bool) : Keyed (.bool b) := by
  rintro ms ⟨⟩

@[simp]
theorem keyed_number (n : Number) : Keyed (.number n) := by
  rintro ms ⟨⟩

@[simp]
theorem keyed_string (s : String) : Keyed (.string s) := by
  rintro ms ⟨⟩

@[simp]
theorem keyed_array {xs : List Json} : Keyed (.array xs) ↔ ∀ x ∈ xs, x.Keyed := by
  constructor
  · intro h x hx ms inside
    exact h ms (.element hx inside)
  · intro h ms inside
    cases inside with
    | element mem inside => exact h _ mem ms inside

@[simp]
theorem keyed_object {ms : List (String × Json)} :
    Keyed (.object ms) ↔ (ms.map (·.1)).Nodup ∧ ∀ m ∈ ms, m.2.Keyed := by
  constructor
  · intro h
    exact ⟨h ms (.whole _), fun m hm ns inside => h ns (.member hm inside)⟩
  · rintro ⟨distinct, hmembers⟩ ns inside
    cases inside with
    | whole => exact distinct
    | member mem inside => exact hmembers _ mem ns inside

theorem sameElements_iff {xs ys : List Json} :
    sameElements xs ys = true ↔ List.Forall₂ (fun x y => x.same y = true) xs ys := by
  induction xs generalizing ys with
  | nil => cases ys <;> simp [sameElements]
  | cons x xs ih => cases ys <;> simp [sameElements, ih]

theorem sameMembers_iff {ms ns : List (String × Json)} :
    sameMembers ms ns = true ↔ ∀ m ∈ ms, ∃ y, lookup? m.1 ns = some y ∧ m.2.same y = true := by
  induction ms with
  | nil => simp [sameMembers]
  | cons m ms ih =>
      obtain ⟨k, x⟩ := m
      rw [sameMembers, Bool.and_eq_true, ih, List.forall_mem_cons]
      refine and_congr_left fun _ => ?_
      cases lookup? k ns <;> simp

theorem sameKeys_iff {ms ns : List (String × Json)} :
    sameKeys ms ns = true ↔ ∀ key, key ∈ ms.map (·.1) ↔ key ∈ ns.map (·.1) := by
  simp only [sameKeys, Bool.and_eq_true, List.all_eq_true, lookup?_isSome]
  constructor
  · rintro ⟨hms, hns⟩ key
    constructor
    · intro hkey
      obtain ⟨m, hm, rfl⟩ := List.mem_map.mp hkey
      exact hms m hm
    · intro hkey
      obtain ⟨n, hn, rfl⟩ := List.mem_map.mp hkey
      exact hns n hn
  · intro h
    exact ⟨fun m hm => (h m.1).mp (List.mem_map_of_mem hm), fun n hn => (h n.1).mpr (List.mem_map_of_mem hn)⟩

def Alike (a b : Json) : Prop := ¬a.HasNan ∧ ¬b.HasNan ∧ a.normal = b.normal

theorem alike_array {xs ys : List Json} :
    Alike (.array xs) (.array ys) ↔ List.Forall₂ Alike xs ys := by
  simp only [Alike, hasNan_array, normal, NormalForm.array.injEq, normalElements_eq]
  induction xs generalizing ys with
  | nil => cases ys <;> simp
  | cons x xs ih =>
      cases ys with
      | nil => simp
      | cons y ys =>
          rw [List.forall₂_cons, ← ih]
          simp only [List.exists_mem_cons_iff, not_or, List.map_cons, List.cons.injEq, Alike]
          tauto

theorem alike_object {ms ns : List (String × Json)} (hms : (ms.map (·.1)).Nodup) (hns : (ns.map (·.1)).Nodup) :
    Alike (.object ms) (.object ns) ↔ (∀ key, key ∈ ms.map (·.1) ↔ key ∈ ns.map (·.1)) ∧
      ∀ m ∈ ms, ∃ y, lookup? m.1 ns = some y ∧ Alike m.2 y := by
  have hnormal : (Json.object ms).normal = (Json.object ns).normal ↔
      ∀ key, (lookup? key ms).map normal = (lookup? key ns).map normal := by
    simp only [normal, NormalForm.object.injEq, funext_iff, normalMembers_eq]
  rw [Alike, hnormal, hasNan_object, hasNan_object]
  constructor
  · rintro ⟨hm, hn, hnormal⟩
    refine ⟨fun key => ?_, fun m hmem => ?_⟩
    · rw [← lookup?_isSome, ← lookup?_isSome, ← Option.isSome_map, hnormal key, Option.isSome_map]
    · have hkey := hnormal m.1
      rw [lookup?_of_mem hms hmem, Option.map_some] at hkey
      obtain ⟨y, hy, heq⟩ := Option.map_eq_some_iff.mp hkey.symm
      exact ⟨y, hy, fun h => hm ⟨m, hmem, h⟩, fun h => hn ⟨_, mem_of_lookup? hy, h⟩, heq.symm⟩
  · rintro ⟨hkeys, halike⟩
    refine ⟨?_, ?_, fun key => ?_⟩
    · rintro ⟨m, hmem, hnan⟩
      obtain ⟨y, -, hx, -⟩ := halike m hmem
      exact hx hnan
    · rintro ⟨n, hmem, hnan⟩
      obtain ⟨m, hm, hkey⟩ := List.mem_map.mp ((hkeys n.1).mpr (List.mem_map_of_mem hmem))
      obtain ⟨y, hy, -, hny, -⟩ := halike m hm
      rw [hkey, lookup?_of_mem hns hmem] at hy
      cases hy
      exact hny hnan
    · cases hx : lookup? key ms with
      | none =>
          have hnone : lookup? key ns = none := by
            rw [lookup?_eq_none] at hx ⊢
            rwa [← hkeys key]
          rw [hnone]
      | some x =>
          obtain ⟨y, hy, -, -, heq⟩ := halike _ (mem_of_lookup? hx)
          rw [hy, Option.map_some, Option.map_some, heq]

theorem same_iff_alike {a b : Json} (ha : a.Keyed) (hb : b.Keyed) : a.same b = true ↔ Alike a b := by
  induction a using induct generalizing b with
  | null => cases b <;> simp [same, Alike, normal]
  | bool x => cases b <;> simp [same, Alike, normal]
  | number n =>
      cases b with
      | number m =>
          simp only [same, Number.same_iff, Alike, hasNan_number, normal, NormalForm.number.injEq]
          constructor
          · rintro ⟨heq, hnan⟩
            exact ⟨hnan, heq ▸ hnan, heq⟩
          · rintro ⟨hnan, -, heq⟩
            exact ⟨heq, hnan⟩
      | _ => simp [same, Alike, normal]
  | string s => cases b <;> simp [same, Alike, normal]
  | array xs ih =>
      cases b with
      | array ys =>
          rw [same, sameElements_iff, alike_array, List.forall₂_iff_zip, List.forall₂_iff_zip]
          refine and_congr_right fun _ => forall₂_congr fun x y => imp_congr_right fun hxy => ?_
          obtain ⟨hx, hy⟩ := List.of_mem_zip hxy
          exact ih x hx (keyed_array.mp ha x hx) (keyed_array.mp hb y hy)
      | _ => simp [same, Alike, normal]
  | object ms ih =>
      cases b with
      | object ns =>
          obtain ⟨hms, hmembers⟩ := keyed_object.mp ha
          obtain ⟨hns, hmembers'⟩ := keyed_object.mp hb
          rw [same, Bool.and_eq_true, sameKeys_iff, sameMembers_iff, alike_object hms hns]
          refine and_congr_right fun _ => forall₂_congr fun m hm => exists_congr fun y =>
            and_congr_right fun hy => ?_
          exact ih m hm (hmembers m hm) (hmembers' _ (mem_of_lookup? hy))
      | _ => simp [same, Alike, normal]

end Json

end LedgerQuery
