import LedgerQuery.Proofs.Json.Members
import LedgerQuery.Shape.Basic

namespace LedgerQuery

section

variable {α β ρ σ : Type} [Source σ]

theorem Shape.checked_holds_read {s : Shape α} {p : α → Bool} {kind : FaultKind} {x : σ} {a : α} :
    (s.checked (holds p kind)).read x = .ok a ↔ s.read x = .ok a ∧ p a = true := by
  cases hs : s.read x with
  | error fs => simp [checked, hs]
  | ok b =>
      cases hp : p b with
      | true =>
          simp only [checked, hs, holds, hp, if_true]
          constructor
          · rintro ⟨⟩
            exact ⟨rfl, hp⟩
          · rintro ⟨⟨⟩, -⟩
            rfl
      | false =>
          simp only [checked, hs, holds, hp, Bool.false_eq_true, if_false]
          constructor
          · rintro ⟨⟩
          · rintro ⟨⟨⟩, hpa⟩
            rw [hp] at hpa
            cases hpa

theorem Shape.atLeast_read [LE α] [DecidableLE α] {s : Shape α} {bound : α} {x : σ} {a : α} :
    (s.atLeast bound).read x = .ok a ↔ s.read x = .ok a ∧ bound ≤ a := by
  rw [atLeast, checked_holds_read, decide_eq_true_eq]

theorem Shape.atMost_read [LE α] [DecidableLE α] {s : Shape α} {bound : α} {x : σ} {a : α} :
    (s.atMost bound).read x = .ok a ↔ s.read x = .ok a ∧ a ≤ bound := by
  rw [atMost, checked_holds_read, decide_eq_true_eq]

theorem Shape.optional_read_of_null {s : Shape α} {x : σ} (h : Source.layer x = .null) : s.optional.read x = .ok none := by
  simp only [optional, h]

theorem Shape.optional_read_of_ne {s : Shape α} {x : σ} (h : Source.layer x ≠ .null) :
    s.optional.read x = (s.read x).map some := by
  simp only [optional]

theorem Shape.optional_read {s : Shape α} {x : σ} {o : Option α} (h : s.optional.read x = .ok o) {a : α}
    (ha : a ∈ o) : s.read x = .ok a := by
  cases ha
  cases hs : s.read x with
  | ok b =>
      simp only [optional, hs] at h
      split at h
      · cases h
      · cases h
        rfl
  | error fs =>
      simp only [optional, hs] at h
      split at h <;> cases h

theorem Shape.checked_read {s : Shape α} {rule : α → Except FaultKind α} {x : σ} {a : α}
    (h : (s.checked rule).read x = .ok a) : ∃ b, rule b = .ok a := by
  simp only [checked] at h
  split at h
  · split at h
    · cases h
      exact ⟨_, by assumption⟩
    · cases h
  · cases h

theorem Reading.mem_of_all {l : List (Reading α)} {as : List α} (h : Reading.all l = .ok as) {a : α} (ha : a ∈ as) :
    .ok a ∈ l := by
  induction l generalizing as with
  | nil =>
      cases h
      cases ha
  | cons x l ih =>
      obtain ⟨push, bs, hx, hbs, rfl⟩ := Reading.apply_eq_ok.mp h
      cases x with
      | error fs => cases hx
      | ok b =>
          cases hx
          obtain rfl | ha := List.mem_cons.mp ha
          · exact List.mem_cons_self
          · exact List.mem_cons_of_mem _ (ih hbs ha)

theorem Shape.read_of_mem_map {s : Shape α} {x : σ} {m : List (String × α)} (h : s.map.read x = .ok m)
    {e : String × α} (he : e ∈ m) : ∃ y : σ, s.read y = .ok e.2 := by
  simp only [Shape.map] at h
  split at h
  · rename_i entries _
    cases hall : Reading.all (entries.map (readEntry s.read)) with
    | error faults =>
        rw [hall] at h
        cases h
    | ok l =>
        rw [hall] at h
        cases h
        obtain h | hmem := mem_foldl_insert he
        · cases h
        · obtain ⟨⟨key, y⟩, -, hentry⟩ := List.mem_map.mp (Reading.mem_of_all hall hmem)
          obtain ⟨g, a, hg, ha, rfl⟩ := Reading.apply_eq_ok.mp hentry
          cases hkey : readKey key with
          | error faults =>
              rw [hkey] at hg
              cases hg
          | ok name =>
              rw [hkey] at hg
              cases hg
              exact ⟨y, Reading.under_eq_ok.mp ha⟩
  · cases h

theorem Fields.required_read {name : String} {s : Shape α} {get : ρ → α} {entries : List (MapKey × σ)} {a : α}
    (h : (required name s get).read entries = .ok a) :
    ∃ y : σ, valueUnder? name entries = some y ∧ s.read y = .ok a := by
  simp only [required] at h
  split at h
  · exact ⟨_, by assumption, Reading.under_eq_ok.mp h⟩
  · cases h

theorem Fields.withDefault_read {name : String} {s : Shape α} {value : α} {get : ρ → α} {P : α → Prop}
    (hvalue : P value) (hread : ∀ (x : σ) a, s.read x = .ok a → P a) {entries : List (MapKey × σ)} {a : α}
    (h : (withDefault name s value get).read entries = .ok a) : P a := by
  simp only [withDefault] at h
  split at h
  · exact hread _ a (Reading.under_eq_ok.mp h)
  · cases h
    exact hvalue

theorem Fields.map_read {g : α → β} {f : Fields ρ α} {entries : List (MapKey × σ)} {b : β} :
    (g <$> f).read entries = .ok b ↔ ∃ a, f.read entries = .ok a ∧ g a = b := by
  have hmap : (g <$> f).read entries = Reading.apply (.ok g) (f.read entries) := rfl
  rw [hmap, Reading.apply_eq_ok]
  constructor
  · rintro ⟨_, a, ⟨⟩, ha, rfl⟩
    exact ⟨a, ha, rfl⟩
  · rintro ⟨a, ha, rfl⟩
    exact ⟨g, a, rfl, ha, rfl⟩

theorem Fields.seq_read {f : Fields ρ (α → β)} {x : Fields ρ α} {entries : List (MapKey × σ)} {b : β} :
    (f <*> x).read entries = .ok b ↔ ∃ g a, f.read entries = .ok g ∧ x.read entries = .ok a ∧ g a = b :=
  Reading.apply_eq_ok

theorem Shape.record_read {name : String} {fields : Fields ρ ρ} {x : σ} {r : ρ}
    (h : (Shape.record name fields).read x = .ok r) : ∃ entries : List (MapKey × σ), fields.read entries = .ok r := by
  simp only [record] at h
  split at h
  · exact ⟨_, h⟩
  · cases h

end

end LedgerQuery
