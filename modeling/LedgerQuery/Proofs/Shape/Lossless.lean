import LedgerQuery.Shape.Basic
import LedgerQuery.Proofs.Json.Normal
import LedgerQuery.Proofs.Shape.Reading
import LedgerQuery.Proofs.Shape.Wire

namespace LedgerQuery

variable {α β ρ : Type}

namespace Shape

structure Lossless (s : Shape α) : Prop where
  reread : ∀ a, s.read (s.display a).wire = .ok a
  present : ∀ a, s.display a ≠ .null

theorem text_lossless : text.Lossless where
  reread _ := rfl
  present _ := nofun

theorem int_lossless : int.Lossless where
  reread _ := rfl
  present _ := nofun

theorem bool_lossless : bool.Lossless where
  reread _ := rfl
  present _ := nofun

theorem metadata_lossless : metadata.Lossless where
  reread ms := by
    change metadata.read (Json.object (Display.wireEntries (Display.ofMembers ms))) = .ok ms
    rw [Display.wireEntries_ofMembers]
    rfl
  present _ := nofun

theorem readings_of_reread {s : Shape α} (h : ∀ a, s.read (s.display a).wire = .ok a) (as : List α) (n : Nat) :
    ((Display.wireElements (as.map s.display)).zipIdx n).map (fun (x, i) => (s.read x).under (.index i)) =
      as.map fun a => .ok a := by
  induction as generalizing n with
  | nil => rfl
  | cons a as ih =>
      rw [List.map_cons, Display.wireElements, List.zipIdx_cons, List.map_cons, ih, List.map_cons]
      simp only [h]
      rfl

theorem Lossless.list {s : Shape α} (h : s.Lossless) : s.list.Lossless where
  reread as := by
    change Reading.all (((Display.wireElements (as.map s.display)).zipIdx 0).map
      fun (x, i) => (s.read x).under (.index i)) = .ok as
    rw [readings_of_reread h.reread, Reading.all_map_ok fun a => a, List.map_id']
  present _ := nofun

end Shape

theorem Json.layer_ne_null {j : Json} (hj : j ≠ .null) : Source.layer j ≠ .null := by
  cases j with
  | null => exact absurd rfl hj
  | _ => nofun

def Display.sent? : Display → Option Json
  | .null => none
  | d => some d.wire

theorem Display.sent?_of_ne {d : Display} (h : d ≠ .null) : d.sent? = some d.wire := by
  cases d with
  | null => exact absurd rfl h
  | _ => rfl

/-- Members under which each of the fields is found as it is sent. -/
def Shows (ms : List (String × Json)) (fields : List (String × Display)) : Prop :=
  ∀ name d, (name, d) ∈ fields → lookup? name ms = d.sent?

theorem lookup?_wireFields_of_notMem {key : String} {fields : List (String × Display)}
    (h : key ∉ fields.map (·.1)) : lookup? key (Display.wireFields fields) = none := by
  induction fields with
  | nil => rfl
  | cons e rest ih =>
      obtain ⟨k, x⟩ := e
      rw [List.map_cons, List.mem_cons, not_or] at h
      by_cases hx : x = .null
      · subst hx
        exact ih h.2
      · rw [Display.wireFields_cons hx, lookup?, if_neg (Ne.symm h.1)]
        exact ih h.2

theorem shows_wireFields {fields : List (String × Display)} (distinct : (fields.map (·.1)).Nodup) :
    Shows (Display.wireFields fields) fields := by
  induction fields with
  | nil => nofun
  | cons e rest ih =>
      obtain ⟨k, x⟩ := e
      rw [List.map_cons, List.nodup_cons] at distinct
      intro name d hd
      obtain heq | hrest := List.mem_cons.mp hd
      · cases heq
        by_cases hx : x = .null
        · subst hx
          change lookup? k (Display.wireFields rest) = none
          exact lookup?_wireFields_of_notMem distinct.1
        · rw [Display.wireFields_cons hx, lookup?, if_pos rfl, Display.sent?_of_ne hx]
      · have hk : k ≠ name := by
          rintro rfl
          exact distinct.1 (List.mem_map.mpr ⟨_, hrest, rfl⟩)
        by_cases hx : x = .null
        · subst hx
          exact ih distinct.2 name d hrest
        · rw [Display.wireFields_cons hx, lookup?, if_neg hk]
          exact ih distinct.2 name d hrest

namespace Fields

section

variable (r : ρ) (name : String)

@[simp]
theorem display_required (s : Shape α) (get : ρ → α) :
    (required name s get).display r = [(name, s.display (get r))] := rfl

@[simp]
theorem display_withDefault (s : Shape α) (value : α) (get : ρ → α) :
    (withDefault name s value get).display r = [(name, s.display (get r))] := rfl

@[simp]
theorem display_optional (s : Shape α) (get : ρ → Option α) :
    (optional name s get).display r = [(name, s.optional.display (get r))] := rfl

@[simp]
theorem display_map (g : α → β) (f : Fields ρ α) : (g <$> f).display r = f.display r := rfl

@[simp]
theorem display_seq (f : Fields ρ (α → β)) (x : Fields ρ α) :
    (f <*> x).display r = f.display r ++ x.display r := rfl

end

/-- Whatever shows the fields of a record is read as what the record has in them. -/
def Lossless (f : Fields ρ α) (get : ρ → α) : Prop :=
  ∀ r ms, Shows ms (f.display r) → f.read (ms.map fun (k, x) => (MapKey.text k, x)) = .ok (get r)

theorem required_lossless {name : String} {s : Shape α} {get : ρ → α} (h : s.Lossless) :
    (required name s get).Lossless get := by
  intro r ms shows
  have hfield := shows name (s.display (get r)) (List.mem_singleton_self _)
  simp only [required, valueUnder?_json, hfield, Display.sent?_of_ne (h.present _), h.reread, Reading.under]

theorem withDefault_lossless {name : String} {s : Shape α} {value : α} {get : ρ → α} (h : s.Lossless) :
    (withDefault name s value get).Lossless get := by
  intro r ms shows
  have hfield := shows name (s.display (get r)) (List.mem_singleton_self _)
  simp only [withDefault, valueUnder?_json, hfield, Display.sent?_of_ne (h.present _), h.reread, Reading.under]

theorem optional_lossless {name : String} {s : Shape α} {get : ρ → Option α} (h : s.Lossless) :
    (optional name s get).Lossless get := by
  intro r ms shows
  have hfield := shows name (s.optional.display (get r)) (List.mem_singleton_self _)
  cases hget : get r with
  | none =>
      rw [hget] at hfield
      simp only [optional, withDefault, valueUnder?_json, hfield]
      rfl
  | some a =>
      rw [hget] at hfield
      change lookup? name ms = (s.display a).sent? at hfield
      simp only [optional, withDefault, valueUnder?_json, hfield, Display.sent?_of_ne (h.present _)]
      rw [Shape.optional_read_of_ne (Json.layer_ne_null (mt Display.wire_eq_null.mp (h.present a))), h.reread]
      rfl

theorem Lossless.map {f : Fields ρ α} {get : ρ → α} {g : α → β} (h : f.Lossless get) :
    (g <$> f).Lossless fun r => g (get r) := by
  intro r ms shows
  have hread := h r ms shows
  change Reading.apply (.ok g) (f.read _) = _
  rw [hread, Reading.apply]

theorem Lossless.seq {f : Fields ρ (α → β)} {x : Fields ρ α} {g : ρ → α → β} {get : ρ → α}
    (hf : f.Lossless g) (hx : x.Lossless get) : (f <*> x).Lossless fun r => g r (get r) := by
  intro r ms shows
  have hfread := hf r ms fun name d hd => shows name d (List.mem_append_left _ hd)
  have hxread := hx r ms fun name d hd => shows name d (List.mem_append_right _ hd)
  change Reading.apply (f.read _) (x.read _) = _
  rw [hfread, hxread, Reading.apply]

section

variable {f : Fields ρ (α → β)} {g : ρ → α → β} {name : String} {s : Shape α}

theorem Lossless.required {get : ρ → α} (hf : f.Lossless g) (h : s.Lossless) :
    (f <*> required name s get).Lossless fun r => g r (get r) := hf.seq (required_lossless h)

theorem Lossless.withDefault {value : α} {get : ρ → α} (hf : f.Lossless g) (h : s.Lossless) :
    (f <*> withDefault name s value get).Lossless fun r => g r (get r) := hf.seq (withDefault_lossless h)

theorem Lossless.optional {f : Fields ρ (Option α → β)} {g : ρ → Option α → β} {get : ρ → Option α}
    (hf : f.Lossless g) (h : s.Lossless) : (f <*> optional name s get).Lossless fun r => g r (get r) :=
  hf.seq (optional_lossless h)

end

end Fields

theorem Shape.record_lossless {name : String} {fields : Fields ρ ρ} {get : ρ → ρ} (h : fields.Lossless get)
    (whole : get = id) (distinct : ∀ r, ((fields.display r).map (·.1)).Nodup) :
    (Shape.record name fields).Lossless where
  reread r := by
    have hread := h r _ (shows_wireFields (distinct r))
    rwa [whole] at hread
  present _ := nofun

end LedgerQuery
