import LedgerQuery.Proofs.Json.Normal
import Mathlib.Logic.Relation

namespace LedgerQuery

theorem lookup?_of_perm {α : Type} {ms ns : List (String × α)} (perm : ms.Perm ns) (distinct : (ms.map (·.1)).Nodup)
    (key : String) : lookup? key ms = lookup? key ns := by
  cases hx : lookup? key ms with
  | none =>
      symm
      rw [lookup?_eq_none] at hx ⊢
      rwa [← (perm.map _).mem_iff]
  | some x =>
      symm
      have distinct' : (ns.map (·.1)).Nodup := (perm.map _).nodup_iff.mp distinct
      exact lookup?_of_mem distinct' (perm.mem_iff.mp (mem_of_lookup? hx))

namespace Json

theorem Keyed.member {x : Json} {ms : List (String × Json)} (h : (Json.object ms).Keyed) (key : String)
    (hx : lookup? key ms = some x) : x.Keyed := (keyed_object.mp h).2 _ (mem_of_lookup? hx)

inductive Respells : Json → Json → Prop
  | order {ms ns : List (String × Json)} (perm : ms.Perm ns) : Respells (.object ms) (.object ns)
  | kind {m n : Number} (equal : m.value = n.value) : Respells (.number m) (.number n)
  | element {x y : Json} {before after : List Json} (inside : Respells x y) :
      Respells (.array (before ++ x :: after)) (.array (before ++ y :: after))
  | member {key : String} {x y : Json} {before after : List (String × Json)} (inside : Respells x y) :
      Respells (.object (before ++ (key, x) :: after)) (.object (before ++ (key, y) :: after))

def Respelled : Json → Json → Prop := Relation.ReflTransGen Respells

section

variable {x y : Json}

theorem Respelled.member {key : String} (h : Respelled x y) (before after : List (String × Json)) :
    Respelled (.object (before ++ (key, x) :: after)) (.object (before ++ (key, y) :: after)) :=
  h.lift (fun z => Json.object (before ++ (key, z) :: after)) fun _ _ => .member

theorem Respells.keyed_iff (h : Respells x y) : x.Keyed ↔ y.Keyed := by
  induction h with
  | order perm => simp only [keyed_object, perm.mem_iff, (perm.map _).nodup_iff]
  | kind equal => simp only [keyed_number]
  | element inside ih => simp only [keyed_array, List.forall_mem_append, List.forall_mem_cons, ih]
  | member inside ih =>
      simp only [keyed_object, List.forall_mem_append, List.forall_mem_cons, List.map_append, List.map_cons, ih]

theorem normalMembers_replace {key : String} (h : x.normal = y.normal) (before after : List (String × Json)) :
    normalMembers (before ++ (key, x) :: after) = normalMembers (before ++ (key, y) :: after) := by
  funext k
  induction before with
  | nil => simp only [List.nil_append, normalMembers, h]
  | cons m before ih => simp only [List.cons_append, normalMembers, ih]

theorem Respells.normal_eq (h : Respells x y) (hx : x.Keyed) : x.normal = y.normal := by
  induction h with
  | order perm =>
      simp only [normal, NormalForm.object.injEq]
      funext key
      rw [normalMembers_eq, normalMembers_eq, lookup?_of_perm perm (keyed_object.mp hx).1]
  | kind equal => simp only [normal, equal]
  | element inside ih =>
      have hinside := ih (keyed_array.mp hx _ (by simp))
      simp only [normal, normalElements_eq, List.map_append, List.map_cons, hinside]
  | @member key x y before after inside ih =>
      have hinside := ih ((keyed_object.mp hx).2 (key, x) (by simp))
      simp only [normal, normalMembers_replace hinside]

end

/-- Values that say the same, in objects without repeated names. -/
structure Matches (x y : Json) : Prop where
  keyed : x.Keyed
  keyed' : y.Keyed
  normal_eq : x.normal = y.normal

variable {x y x' y' : Json}

theorem Respelled.matches (h : Respelled x y) (hx : x.Keyed) : Matches x y := by
  induction h with
  | refl => exact ⟨hx, hx, rfl⟩
  | tail _ step ih =>
      exact ⟨hx, step.keyed_iff.mp ih.keyed', ih.normal_eq.trans (step.normal_eq ih.keyed')⟩

namespace Matches

theorem symm (h : Matches x y) : Matches y x := ⟨h.keyed', h.keyed, h.normal_eq.symm⟩

theorem exists_member {key : String} {ms ns : List (String × Json)} (h : Matches (.object ms) (.object ns))
    (hx : lookup? key ms = some x) : ∃ y, lookup? key ns = some y ∧ Matches x y := by
  have hmembers := h.normal_eq
  rw [normal, normal, NormalForm.object.injEq] at hmembers
  have hkey := congrFun hmembers key
  rw [normalMembers_eq, normalMembers_eq, hx, Option.map_some, eq_comm, Option.map_eq_some_iff] at hkey
  obtain ⟨y, hy, heq⟩ := hkey
  exact ⟨y, hy, h.keyed.member key hx, h.keyed'.member key hy, heq.symm⟩

theorem member {ms ns : List (String × Json)} (h : Matches (.object ms) (.object ns)) (key : String)
    (hx : lookup? key ms = some x) (hy : lookup? key ns = some y) : Matches x y := by
  obtain ⟨z, hz, hxz⟩ := h.exists_member hx
  rw [hy] at hz
  cases hz
  exact hxz

theorem string_eq {a b : String} (h : Matches (.string a) (.string b)) : a = b := NormalForm.string.inj h.normal_eq

theorem int_eq {m n : Int} (h : Matches (.number (.int m)) (.number (.int n))) : m = n := by
  have hvalue := NormalForm.number.inj h.normal_eq
  rw [Number.value_int, Number.value_int] at hvalue
  simpa using hvalue

end Matches

theorem HasNan.of_matches (hnan : x.HasNan) (h : Matches x y) : y.HasNan := by
  induction x using induct generalizing y with
  | null => exact absurd hnan hasNan_null
  | bool b => exact absurd hnan (hasNan_bool b)
  | string s => exact absurd hnan (hasNan_string s)
  | number n =>
      have hnormal := h.normal_eq
      cases y with
      | number m =>
          rw [normal, normal, NormalForm.number.injEq] at hnormal
          rwa [hasNan_number, ← hnormal, ← hasNan_number]
      | _ => cases hnormal
  | array xs ih =>
      have hnormal := h.normal_eq
      cases y with
      | array ys =>
          obtain ⟨x, hx, hnan⟩ := hasNan_array.mp hnan
          rw [normal, normal, NormalForm.array.injEq, normalElements_eq, normalElements_eq] at hnormal
          obtain ⟨y, hy, hxy⟩ := List.mem_map.mp (hnormal ▸ List.mem_map_of_mem hx)
          exact hasNan_array.mpr
            ⟨y, hy, ih x hx hnan ⟨keyed_array.mp h.keyed x hx, keyed_array.mp h.keyed' y hy, hxy.symm⟩⟩
      | _ => cases hnormal
  | object ms ih =>
      have hnormal := h.normal_eq
      cases y with
      | object ns =>
          obtain ⟨m, hm, hnan⟩ := hasNan_object.mp hnan
          obtain ⟨y, hy, hxy⟩ := h.exists_member (lookup?_of_mem (keyed_object.mp h.keyed).1 hm)
          exact hasNan_object.mpr ⟨_, mem_of_lookup? hy, ih m hm hnan hxy⟩
      | _ => cases hnormal

theorem Matches.hasNan_iff (h : Matches x y) : x.HasNan ↔ y.HasNan :=
  ⟨fun hx => hx.of_matches h, fun hy => hy.of_matches h.symm⟩

theorem Matches.same_eq (h : Matches x x') (h' : Matches y y') : x.same y = x'.same y' := by
  rw [Bool.eq_iff_iff, same_iff_alike h.keyed h'.keyed, same_iff_alike h.keyed' h'.keyed', Alike, Alike,
    h.hasNan_iff, h'.hasNan_iff, h.normal_eq, h'.normal_eq]

end Json

end LedgerQuery
