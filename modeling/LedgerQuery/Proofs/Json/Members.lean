import LedgerQuery.Json.Basic
import Mathlib.Data.List.Nodup

namespace LedgerQuery

universe u

variable {α : Type u} {key : String} {x : α} {l : List (String × α)}

theorem mem_of_lookup? (h : lookup? key l = some x) : (key, x) ∈ l := by
  induction l with
  | nil => cases h
  | cons e rest ih =>
      obtain ⟨k, y⟩ := e
      by_cases hk : k = key
      · simp only [lookup?, hk, if_true, Option.some.injEq] at h
        simp [hk, h]
      · simp only [lookup?, hk, if_false] at h
        exact List.mem_cons_of_mem _ (ih h)

theorem lookup?_eq_none : lookup? key l = none ↔ key ∉ l.map (·.1) := by
  induction l with
  | nil => simp
  | cons e rest ih =>
      obtain ⟨k, y⟩ := e
      by_cases hk : k = key
      · simp [lookup?, hk]
      · simp [lookup?, hk, ih, Ne.symm hk]

theorem lookup?_isSome : (lookup? key l).isSome = true ↔ key ∈ l.map (·.1) := by
  rw [← Option.ne_none_iff_isSome, ne_eq, lookup?_eq_none, not_not]

theorem lookup?_of_mem (distinct : (l.map (·.1)).Nodup) (h : (key, x) ∈ l) : lookup? key l = some x := by
  induction l with
  | nil => cases h
  | cons e rest ih =>
      obtain ⟨k, y⟩ := e
      rw [List.map_cons, List.nodup_cons] at distinct
      obtain heq | hrest := List.mem_cons.mp h
      · cases heq
        simp [lookup?]
      · have hk : k ≠ key := by
          rintro rfl
          exact distinct.1 (List.mem_map.mpr ⟨_, hrest, rfl⟩)
        simp only [lookup?, hk, if_false]
        exact ih distinct.2 hrest

theorem lookup?_append (key : String) (ms ns : List (String × α)) :
    lookup? key (ms ++ ns) = (lookup? key ms).or (lookup? key ns) := by
  induction ms with
  | nil => rfl
  | cons m ms ih =>
      obtain ⟨k, x⟩ := m
      by_cases hk : k = key <;> simp [lookup?, hk, ih]

theorem lookup?_middle {k : String} (h : k ≠ key) (x : α) (before after : List (String × α)) :
    lookup? key (before ++ (k, x) :: after) = lookup? key (before ++ after) := by
  rw [lookup?_append, lookup?_append, lookup?_cons, if_neg h]

theorem lookup?_middle_self {before : List (String × α)} (first : key ∉ before.map (·.1)) (x : α)
    (after : List (String × α)) : lookup? key (before ++ (key, x) :: after) = some x := by
  rw [lookup?_append, lookup?_eq_none.mpr first, lookup?_cons, if_pos rfl, Option.none_or]

theorem notMem_of_nodup_middle {before after : List (String × α)}
    (distinct : ((before ++ (key, x) :: after).map (·.1)).Nodup) :
    key ∉ before.map (·.1) ∧ key ∉ after.map (·.1) := by
  rw [List.map_append, List.map_cons, List.nodup_middle, List.nodup_cons, List.mem_append, not_or] at distinct
  exact distinct.1

theorem map_fst_insert {α : Type} (key : String) (x : α) (l : List (String × α)) :
    (insert key x l).map (·.1) = if key ∈ l.map (·.1) then l.map (·.1) else l.map (·.1) ++ [key] := by
  induction l with
  | nil => simp [insert]
  | cons e rest ih =>
      obtain ⟨k, y⟩ := e
      by_cases hk : k = key
      · simp [insert, hk]
      · simp only [insert, hk, if_false, List.map_cons, ih, List.mem_cons, Ne.symm hk, false_or]
        split <;> simp

theorem mem_insert {α : Type} {key : String} {x : α} {l : List (String × α)} {e : String × α}
    (h : e ∈ insert key x l) : e = (key, x) ∨ e ∈ l := by
  induction l with
  | nil => exact .inl (List.mem_singleton.mp h)
  | cons d rest ih =>
      obtain ⟨k, y⟩ := d
      by_cases hk : k = key
      · simp only [insert, hk, if_true, List.mem_cons] at h
        obtain h | h := h
        · exact .inl h
        · exact .inr (List.mem_cons_of_mem _ h)
      · simp only [insert, hk, if_false, List.mem_cons] at h
        obtain rfl | h := h
        · exact .inr (List.mem_cons_self ..)
        · exact (ih h).imp_right (List.mem_cons_of_mem _)

theorem insert_of_notMem (h : key ∉ l.map (·.1)) : insert key x l = l ++ [(key, x)] := by
  induction l with
  | nil => rfl
  | cons e rest ih =>
      obtain ⟨k, y⟩ := e
      rw [List.map_cons, List.mem_cons, not_or] at h
      simp only [insert, Ne.symm h.1, if_false, ih h.2, List.cons_append]

theorem mem_foldl_insert {α : Type} {l acc : List (String × α)} {e : String × α}
    (h : e ∈ l.foldl (fun m (k, a) => insert k a m) acc) : e ∈ acc ∨ e ∈ l := by
  induction l generalizing acc with
  | nil => exact .inl h
  | cons d l ih =>
      obtain ⟨k, a⟩ := d
      obtain h | h := ih h
      · obtain rfl | h := mem_insert h
        · exact .inr List.mem_cons_self
        · exact .inl h
      · exact .inr (List.mem_cons_of_mem _ h)

theorem foldl_insert_of_nodup {acc : List (String × α)} (distinct : ((acc ++ l).map (·.1)).Nodup) :
    l.foldl (fun m (k, a) => insert k a m) acc = acc ++ l := by
  induction l generalizing acc with
  | nil => simp
  | cons e l ih =>
      obtain ⟨k, a⟩ := e
      have hk : k ∉ acc.map (·.1) := by
        rw [List.map_append, List.nodup_append] at distinct
        intro hmem
        exact distinct.2.2 k hmem k (by simp) rfl
      change l.foldl _ (insert k a acc) = _
      rw [insert_of_notMem hk, ih]
      · simp
      · simpa using distinct

theorem filter_insert (p : String → Bool) (key : String) (x : α) (l : List (String × α)) :
    (insert key x l).filter (fun e => p e.1) =
      if p key then insert key x (l.filter fun e => p e.1) else l.filter fun e => p e.1 := by
  induction l with
  | nil => cases hp : p key <;> simp [insert, hp]
  | cons e rest ih =>
      obtain ⟨k, y⟩ := e
      by_cases hk : k = key
      · subst hk
        cases hp : p k <;> simp [insert, hp]
      · simp only [insert, hk, if_false, List.filter_cons, ih]
        cases p k <;> cases p key <;> simp [insert, hk]

theorem filter_foldl_insert (p : String → Bool) (l acc : List (String × α)) :
    (l.foldl (fun m (k, a) => insert k a m) acc).filter (fun e => p e.1) =
      (l.filter fun e => p e.1).foldl (fun m (k, a) => insert k a m) (acc.filter fun e => p e.1) := by
  induction l generalizing acc with
  | nil => rfl
  | cons e l ih =>
      obtain ⟨k, a⟩ := e
      change (l.foldl _ (insert k a acc)).filter _ = _
      rw [ih, filter_insert, List.filter_cons]
      cases p k <;> simp

end LedgerQuery
