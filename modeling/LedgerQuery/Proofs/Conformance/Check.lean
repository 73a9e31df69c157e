import LedgerQuery.Conformance.Check
import Mathlib.Data.List.Forall2

namespace LedgerQuery.Checked

variable {α β : Type}

@[simp]
theorem bind_eq_ok {x : Checked α} {f : α → Checked β} {b : β} :
    x >>= f = .ok b ↔ ∃ a, x = .ok a ∧ f a = .ok b := by
  cases x with
  | error v => simp [bind, Except.bind]
  | ok a => simp [bind, Except.bind]

@[simp]
theorem pure_eq_ok {a b : α} : (pure a : Checked α) = .ok b ↔ a = b := by
  simp [pure, Except.pure]

@[simp]
theorem map_eq_ok {x : Checked α} {f : α → β} {b : β} : x.map f = .ok b ↔ ∃ a, x = .ok a ∧ f a = b := by
  cases x <;> simp [Except.map]

@[simp]
theorem functor_map_eq_ok {x : Checked α} {f : α → β} {b : β} :
    f <$> x = .ok b ↔ ∃ a, x = .ok a ∧ f a = b := map_eq_ok

@[simp]
theorem present_eq_ok {what : String} {x : Option α} {a : α} : present what x = .ok a ↔ x = some a := by
  cases x <;> simp [present]

theorem mapM_eq_ok {check : α → Checked β} {xs : List α} {ys : List β} :
    xs.mapM check = .ok ys ↔ List.Forall₂ (fun x y => check x = .ok y) xs ys := by
  induction xs generalizing ys with
  | nil => cases ys <;> simp [pure, Except.pure]
  | cons x xs ih =>
      rw [List.mapM_cons]
      constructor
      · intro h
        obtain ⟨y, hy, hrest⟩ := bind_eq_ok.mp h
        obtain ⟨zs, hzs, heq⟩ := bind_eq_ok.mp hrest
        obtain rfl := pure_eq_ok.mp heq
        exact .cons hy (ih.mp hzs)
      · intro h
        cases h with
        | cons hy hys =>
            exact bind_eq_ok.mpr ⟨_, hy, bind_eq_ok.mpr ⟨_, ih.mpr hys, rfl⟩⟩

theorem forM_eq_ok {check : α → Checked Unit} {xs : List α} :
    xs.forM check = .ok () ↔ ∀ x ∈ xs, check x = .ok () := by
  induction xs with
  | nil => simp [pure, Except.pure]
  | cons x xs ih =>
      have hstep : (x :: xs).forM check = (check x >>= fun _ => xs.forM check) := rfl
      rw [hstep, bind_eq_ok, List.forall_mem_cons, ← ih]
      constructor
      · rintro ⟨_, h⟩
        exact h
      · intro h
        exact ⟨(), h⟩

theorem distinct_eq_ok {check : α → Checked β} {same : β → β → Bool} {repeated : β → Violation}
    {seen ys : List β} {xs : List α} :
    distinct check same repeated seen xs = .ok ys ↔
      ∃ bs, List.Forall₂ (fun x b => check x = .ok b) xs bs ∧ bs.Pairwise (fun a b => same a b = false) ∧
        (∀ a ∈ seen, ∀ b ∈ bs, same a b = false) ∧ ys = seen ++ bs := by
  induction xs generalizing seen with
  | nil =>
      constructor
      · intro h
        cases h
        exact ⟨[], .nil, .nil, by simp, by simp⟩
      · rintro ⟨bs, hbs, -, -, rfl⟩
        cases hbs
        simp [distinct]
  | cons x xs ih =>
      rw [distinct, bind_eq_ok]
      constructor
      · rintro ⟨b, hb, hrest⟩
        cases hseen : seen.any (same · b) with
        | true => simp [hseen] at hrest
        | false =>
            rw [hseen, if_neg Bool.false_ne_true, ih] at hrest
            obtain ⟨bs, hbs, hpairs, hnew, rfl⟩ := hrest
            rw [List.any_eq_false] at hseen
            refine ⟨b :: bs, .cons hb hbs, ?_, ?_, by simp⟩
            · exact .cons (fun c hc => hnew b (by simp) c hc) hpairs
            · intro a ha c hc
              obtain rfl | hc := List.mem_cons.mp hc
              · exact Bool.eq_false_iff.mpr (hseen a ha)
              · exact hnew a (by simp [ha]) c hc
      · rintro ⟨bs, hbs, hpairs, hnew, rfl⟩
        cases hbs with
        | @cons _ b _ bs hb hbs =>
            obtain ⟨hfirst, hpairs⟩ := List.pairwise_cons.mp hpairs
            have hseen : seen.any (same · b) = false := by
              rw [List.any_eq_false]
              intro a ha
              simp [hnew a ha b (by simp)]
            refine ⟨b, hb, ?_⟩
            rw [hseen, if_neg Bool.false_ne_true, ih]
            refine ⟨bs, hbs, hpairs, ?_, by simp⟩
            intro a ha c hc
            obtain ha | ha := List.mem_append.mp ha
            · exact hnew a ha c (by simp [hc])
            · obtain rfl := List.mem_singleton.mp ha
              exact hfirst c hc

def Distinct (same : α → α → Bool) (xs : List α) : Prop := xs.Pairwise fun a b => same a b = false

section

variable {check : α → Checked β} {P : α → Prop} {get : α → Option β}

theorem forall₂_iff (hcheck : ∀ x b, check x = .ok b ↔ P x ∧ get x = some b)
    (hget : ∀ x, P x → ∃ b, get x = some b) {xs : List α} {bs : List β} :
    List.Forall₂ (fun x b => check x = .ok b) xs bs ↔ (∀ x ∈ xs, P x) ∧ bs = xs.filterMap get := by
  induction xs generalizing bs with
  | nil => simp
  | cons x xs ih =>
      constructor
      · intro h
        cases h with
        | cons hb hbs =>
            obtain ⟨hx, hgot⟩ := (hcheck _ _).mp hb
            obtain ⟨hxs, rfl⟩ := ih.mp hbs
            exact ⟨List.forall_mem_cons.mpr ⟨hx, hxs⟩, by rw [List.filterMap_cons_some hgot]⟩
      · rintro ⟨hall, rfl⟩
        obtain ⟨hx, hxs⟩ := List.forall_mem_cons.mp hall
        obtain ⟨b, hb⟩ := hget x hx
        rw [List.filterMap_cons_some hb]
        exact .cons ((hcheck x b).mpr ⟨hx, hb⟩) (ih.mpr ⟨hxs, rfl⟩)

theorem distinct_passes (hcheck : ∀ x b, check x = .ok b ↔ P x ∧ get x = some b)
    (hget : ∀ x, P x → ∃ b, get x = some b) {same : β → β → Bool} {repeated : β → Violation} {xs : List α} :
    (∃ ys, distinct check same repeated [] xs = .ok ys) ↔
      (∀ x ∈ xs, P x) ∧ Distinct same (xs.filterMap get) := by
  constructor
  · rintro ⟨ys, hys⟩
    obtain ⟨bs, hbs, hpairs, -, -⟩ := distinct_eq_ok.mp hys
    obtain ⟨hxs, rfl⟩ := (forall₂_iff hcheck hget).mp hbs
    exact ⟨hxs, hpairs⟩
  · rintro ⟨hxs, hpairs⟩
    exact ⟨_, distinct_eq_ok.mpr ⟨_, (forall₂_iff hcheck hget).mpr ⟨hxs, rfl⟩, hpairs, by simp, rfl⟩⟩

end

end LedgerQuery.Checked
