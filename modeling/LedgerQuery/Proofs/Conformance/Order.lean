import LedgerQuery.Proofs.Conformance.Check

namespace LedgerQuery

def faultIf (p : Prop) [Decidable p] (v : Violation) : List Violation := if p then [v] else []

section

variable {p : Prop} [Decidable p] {v : Violation}

theorem faultIf_pos (h : p) : faultIf p v = [v] := if_pos h

theorem faultIf_neg (h : ¬p) : faultIf p v = [] := if_neg h

theorem head?_faultIf {w : Violation} : (faultIf p v).head? = some w ↔ p ∧ v = w := by
  by_cases h : p <;> simp [faultIf, h]

end

namespace Checked

variable {α β : Type}

/-- The check passes if there are no faults, and else it fails with the first of them. -/
def Reports (c : Checked α) : List Violation → Prop
  | [] => ∃ a, c = .ok a
  | v :: _ => c = .error v

section

variable {c : Checked α} {faults rest : List Violation}

theorem Reports.error_iff (h : Reports c faults) {v : Violation} : c = .error v ↔ faults.head? = some v := by
  cases faults with
  | nil =>
      obtain ⟨a, rfl⟩ := h
      simp
  | cons w ws =>
      cases h
      simp

theorem Reports.ok_iff (h : Reports c faults) : (∃ a, c = .ok a) ↔ faults = [] := by
  cases faults with
  | nil => exact iff_of_true h rfl
  | cons w ws =>
      cases h
      simp

theorem reports_ok (a : α) : Reports (.ok a) [] := ⟨a, rfl⟩

theorem reports_ensure {p q : Prop} [Decidable p] [Decidable q] (h : q ↔ ¬p) (v : Violation) :
    Reports (ensure p v) (faultIf q v) := by
  by_cases hp : p
  · rw [ensure, if_pos hp, faultIf_neg fun hq => h.mp hq hp]
    exact reports_ok ()
  · rw [ensure, if_neg hp, faultIf_pos (h.mpr hp)]
    exact rfl

theorem Reports.bind (h : Reports c faults) {f : α → Checked β} (hf : ∀ a, c = .ok a → Reports (f a) rest) :
    Reports (c >>= f) (faults ++ rest) := by
  cases faults with
  | nil =>
      obtain ⟨a, rfl⟩ := h
      exact hf a rfl
  | cons v vs =>
      cases h
      exact rfl

theorem Reports.bind_ok (h : Reports c faults) (f : α → β) : Reports (c >>= fun a => .ok (f a)) faults := by
  have hbind := h.bind (fun a _ => reports_ok (f a))
  rwa [List.append_nil] at hbind

theorem head?_flatMap_eq_some {faults : α → List Violation} {xs : List α} {v : Violation} :
    (xs.flatMap faults).head? = some v ↔
      ∃ before x after, xs = before ++ x :: after ∧ (∀ y ∈ before, faults y = []) ∧ (faults x).head? = some v := by
  rw [List.head?_flatMap, List.findSome?_eq_some_iff]
  constructor
  · rintro ⟨before, x, after, rfl, hx, hbefore⟩
    exact ⟨before, x, after, rfl, fun y hy => List.head?_eq_none_iff.mp (hbefore y hy), hx⟩
  · rintro ⟨before, x, after, rfl, hbefore, hx⟩
    exact ⟨before, x, after, rfl, hx, fun y hy => List.head?_eq_none_iff.mpr (hbefore y hy)⟩

theorem head?_append_eq_some {xs ys : List Violation} {v : Violation} :
    (xs ++ ys).head? = some v ↔ xs.head? = some v ∨ xs = [] ∧ ys.head? = some v := by
  cases xs <;> simp

end

def repeatFaults (get : α → Option β) (same : β → β → Bool) (repeated : β → Violation) (before : List α)
    (x : α) : List Violation :=
  match get x with
  | none => []
  | some b => faultIf (∃ a ∈ before.filterMap get, same a b = true) (repeated b)

/-- What is wrong with each entry by itself and then beside those before it, one entry after the other. -/
def distinctFaults (faults : α → List Violation) (get : α → Option β) (same : β → β → Bool)
    (repeated : β → Violation) : List α → List α → List Violation
  | _, [] => []
  | before, x :: xs =>
    faults x ++ repeatFaults get same repeated before x ++
      distinctFaults faults get same repeated (before ++ [x]) xs

section

variable {check : α → Checked β} {faults : α → List Violation} {get : α → Option β} {same : β → β → Bool}
  {repeated : β → Violation}

theorem Reports.eq_ok_iff (hcheck : ∀ x, Reports (check x) (faults x))
    (hget : ∀ x b, check x = .ok b → get x = some b) (x : α) (b : β) :
    check x = .ok b ↔ faults x = [] ∧ get x = some b := by
  constructor
  · intro h
    exact ⟨(hcheck x).ok_iff.mp ⟨b, h⟩, hget x b h⟩
  · rintro ⟨hx, hb⟩
    obtain ⟨c, hc⟩ := (hcheck x).ok_iff.mpr hx
    rw [hc, Option.some.inj ((hget x c hc).symm.trans hb)]

theorem Reports.exists_get (hcheck : ∀ x, Reports (check x) (faults x))
    (hget : ∀ x b, check x = .ok b → get x = some b) (x : α) (hx : faults x = []) : ∃ b, get x = some b := by
  obtain ⟨b, hb⟩ := (hcheck x).ok_iff.mpr hx
  exact ⟨b, hget x b hb⟩

theorem reports_mapM (hcheck : ∀ x, Reports (check x) (faults x)) (xs : List α) :
    Reports (xs.mapM check) (xs.flatMap faults) := by
  induction xs with
  | nil => exact reports_ok _
  | cons x xs ih =>
      rw [List.mapM_cons, List.flatMap_cons]
      exact (hcheck x).bind fun y _ => ih.bind_ok (y :: ·)

theorem mapM_eq_ok_of_reports (hcheck : ∀ x, Reports (check x) (faults x))
    (hget : ∀ x b, check x = .ok b → get x = some b) {xs : List α} {bs : List β} :
    xs.mapM check = .ok bs ↔ (∀ x ∈ xs, faults x = []) ∧ bs = xs.filterMap get :=
  mapM_eq_ok.trans (forall₂_iff (Reports.eq_ok_iff hcheck hget) (Reports.exists_get hcheck hget))

theorem reports_distinct (hcheck : ∀ x, Reports (check x) (faults x))
    (hget : ∀ x b, check x = .ok b → get x = some b) (before xs : List α) :
    Reports (distinct check same repeated (before.filterMap get) xs)
      (distinctFaults faults get same repeated before xs) := by
  induction xs generalizing before with
  | nil => exact reports_ok _
  | cons x xs ih =>
      rw [distinct, distinctFaults, List.append_assoc]
      refine (hcheck x).bind fun b hb => ?_
      have hx := hget x b hb
      have hseen : (before ++ [x]).filterMap get = before.filterMap get ++ [b] := by simp [hx]
      simp only [repeatFaults, hx]
      by_cases hrepeated : ∃ a ∈ before.filterMap get, same a b = true
      · rw [if_pos (List.any_eq_true.mpr hrepeated), faultIf_pos hrepeated]
        exact rfl
      · rw [if_neg (List.any_eq_true.not.mpr hrepeated), faultIf_neg hrepeated, ← hseen]
        exact ih (before ++ [x])

theorem distinctFaults_append (before xs ys : List α) :
    distinctFaults faults get same repeated before (xs ++ ys) =
      distinctFaults faults get same repeated before xs ++ distinctFaults faults get same repeated (before ++ xs) ys := by
  induction xs generalizing before with
  | nil => simp [distinctFaults]
  | cons x xs ih => simp [distinctFaults, ih]

theorem head?_distinctFaults {before xs : List α} {v : Violation} :
    (distinctFaults faults get same repeated before xs).head? = some v ↔
      ∃ ys x zs, xs = ys ++ x :: zs ∧ distinctFaults faults get same repeated before ys = [] ∧
        (faults x ++ repeatFaults get same repeated (before ++ ys) x).head? = some v := by
  constructor
  · intro h
    induction xs generalizing before with
    | nil => cases h
    | cons x xs ih =>
        rw [distinctFaults, List.head?_append] at h
        cases hx : (faults x ++ repeatFaults get same repeated before x).head? with
        | some w =>
            rw [hx] at h
            exact ⟨[], x, xs, rfl, rfl, by rw [List.append_nil, hx]; exact h⟩
        | none =>
            rw [hx] at h
            obtain ⟨ys, y, zs, rfl, hys, hy⟩ := ih h
            refine ⟨x :: ys, y, zs, rfl, ?_, by simpa using hy⟩
            rw [distinctFaults, List.head?_eq_none_iff.mp hx, hys]
            rfl
  · rintro ⟨ys, x, zs, rfl, hys, hx⟩
    rw [distinctFaults_append, hys, List.nil_append, distinctFaults, List.head?_append, hx]
    rfl

theorem distinctFaults_eq_nil (hcheck : ∀ x, Reports (check x) (faults x))
    (hget : ∀ x b, check x = .ok b → get x = some b) {xs : List α} :
    distinctFaults faults get same repeated [] xs = [] ↔
      (∀ x ∈ xs, faults x = []) ∧ Distinct same (xs.filterMap get) := by
  rw [← distinct_passes (Reports.eq_ok_iff hcheck hget) (Reports.exists_get hcheck hget)]
  exact (reports_distinct hcheck hget [] xs).ok_iff.symm

theorem head?_repeatFaults {before : List α} {x : α} {v : Violation} :
    (repeatFaults get same repeated before x).head? = some v ↔
      ∃ b, get x = some b ∧ (∃ a ∈ before.filterMap get, same a b = true) ∧ v = repeated b := by
  rw [repeatFaults]
  cases hx : get x with
  | none => simp
  | some b =>
      rw [head?_faultIf]
      constructor
      · rintro ⟨hagain, rfl⟩
        exact ⟨b, rfl, hagain, rfl⟩
      · rintro ⟨_, ⟨⟩, hagain, rfl⟩
        exact ⟨hagain, rfl⟩

theorem head?_distinctFaults_nil (hcheck : ∀ x, Reports (check x) (faults x))
    (hget : ∀ x b, check x = .ok b → get x = some b) {xs : List α} {v : Violation} :
    (distinctFaults faults get same repeated [] xs).head? = some v ↔
      ∃ before x after, xs = before ++ x :: after ∧
        ((∀ y ∈ before, faults y = []) ∧ Distinct same (before.filterMap get)) ∧
          ((faults x).head? = some v ∨
            faults x = [] ∧ ∃ b, get x = some b ∧ (∃ a ∈ before.filterMap get, same a b = true) ∧ v = repeated b) := by
  rw [head?_distinctFaults]
  simp only [List.nil_append, distinctFaults_eq_nil hcheck hget, head?_append_eq_some, head?_repeatFaults]

end

end Checked

end LedgerQuery
