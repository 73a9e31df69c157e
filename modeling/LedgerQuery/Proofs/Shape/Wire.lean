import LedgerQuery.Shape.Display

namespace LedgerQuery

abbrev Trail := List (String ⊕ Nat)

def Json.at? : Trail → Json → Option Json
  | [], j => some j
  | .inl key :: trail, .object ms => (lookup? key ms).bind (at? trail)
  | .inr i :: trail, .array xs => xs[i]?.bind (at? trail)
  | _ :: _, _ => none

theorem Json.at?_append (trail trail' : Trail) (j : Json) :
    j.at? (trail ++ trail') = (j.at? trail).bind (at? trail') := by
  induction trail generalizing j with
  | nil => rfl
  | cons step trail ih =>
      cases step with
      | inl key =>
          cases j with
          | object ms =>
              change (lookup? key ms).bind (at? (trail ++ trail')) =
                ((lookup? key ms).bind (at? trail)).bind (at? trail')
              rw [Option.bind_assoc]
              exact Option.bind_congr fun x _ => ih x
          | _ => rfl
      | inr i =>
          cases j with
          | array xs =>
              change xs[i]?.bind (at? (trail ++ trail')) = (xs[i]?.bind (at? trail)).bind (at? trail')
              rw [Option.bind_assoc]
              exact Option.bind_congr fun x _ => ih x
          | _ => rfl

namespace Display

def at? : Trail → Display → Option Display
  | [], d => some d
  | .inl key :: trail, .map entries | .inl key :: trail, .record _ entries =>
      (lookup? key entries).bind (at? trail)
  | .inr i :: trail, .list xs => xs[i]?.bind (at? trail)
  | _ :: _, _ => none

theorem wireElements_getElem? (xs : List Display) (i : Nat) : (wireElements xs)[i]? = xs[i]?.map wire := by
  induction xs generalizing i with
  | nil => rfl
  | cons x xs ih => cases i <;> simp [wireElements, ih]

theorem lookup?_wireEntries (key : String) (entries : List (String × Display)) :
    lookup? key (wireEntries entries) = (lookup? key entries).map wire := by
  induction entries with
  | nil => rfl
  | cons e rest ih =>
      obtain ⟨k, x⟩ := e
      by_cases hk : k = key <;> simp [wireEntries, lookup?, hk, ih]

theorem wireFields_cons {x : Display} (hx : x ≠ .null) (k : String) (rest : List (String × Display)) :
    wireFields ((k, x) :: rest) = (k, x.wire) :: wireFields rest := by
  cases x with
  | null => exact absurd rfl hx
  | _ => rfl

theorem lookup?_wireFields {key : String} {x : Display} {fields : List (String × Display)}
    (h : lookup? key fields = some x) (hx : x ≠ .null) : lookup? key (wireFields fields) = some x.wire := by
  induction fields with
  | nil => cases h
  | cons e rest ih =>
      obtain ⟨k, y⟩ := e
      by_cases hk : k = key
      · simp only [lookup?, hk, if_true, Option.some.injEq] at h
        subst h
        simp [wireFields_cons hx, lookup?, hk]
      · simp only [lookup?, hk, if_false] at h
        by_cases hy : y = .null
        · subst hy
          exact ih h
        · simp [wireFields_cons hy, lookup?, hk, ih h]

theorem wire_eq_null {x : Display} : x.wire = .null ↔ x = .null := by
  cases x <;> simp [wire]

theorem not_null_of_wireFields {key : String} {fields : List (String × Display)} :
    lookup? key (wireFields fields) ≠ some .null := by
  induction fields with
  | nil => nofun
  | cons e rest ih =>
      obtain ⟨k, y⟩ := e
      by_cases hy : y = .null
      · subst hy
        exact ih
      · by_cases hk : k = key
        · simp [wireFields_cons hy, lookup?, hk, wire_eq_null, hy]
        · simpa [wireFields_cons hy, lookup?, hk] using ih

theorem at?_null {trail : Trail} {e : Display} (h : at? trail .null = some e) : e = .null := by
  cases trail with
  | nil =>
      cases h
      rfl
  | cons step trail => cases step <;> cases h

theorem wire_at? {trail : Trail} {d e : Display} (h : d.at? trail = some e) (he : e ≠ .null) :
    d.wire.at? trail = some e.wire := by
  induction trail generalizing d with
  | nil =>
      cases h
      rfl
  | cons step trail ih =>
      cases step with
      | inl key =>
          cases d with
          | map entries =>
              obtain ⟨x, hx, hrest⟩ := Option.bind_eq_some_iff.mp h
              simp [wire, Json.at?, lookup?_wireEntries, hx, ih hrest]
          | record name fields =>
              obtain ⟨x, hx, hrest⟩ := Option.bind_eq_some_iff.mp h
              have hnull : x ≠ .null := by
                rintro rfl
                exact he (at?_null hrest)
              simp [wire, Json.at?, lookup?_wireFields hx hnull, ih hrest]
          | _ => cases h
      | inr i =>
          cases d with
          | list xs =>
              obtain ⟨x, hx, hrest⟩ := Option.bind_eq_some_iff.mp h
              simp [wire, Json.at?, wireElements_getElem?, hx, ih hrest]
          | _ => cases h

theorem wire_field_ne_null {trail : Trail} {d : Display} {name : String} {fields : List (String × Display)}
    (h : d.at? trail = some (.record name fields)) (key : String) :
    d.wire.at? (trail ++ [.inl key]) ≠ some .null := by
  rw [Json.at?_append, wire_at? h nofun, wire, Option.bind_some]
  intro hnull
  obtain ⟨x, hx, hx'⟩ := Option.bind_eq_some_iff.mp hnull
  cases hx'
  exact not_null_of_wireFields hx

theorem wire_members {trail : Trail} {d : Display} {ms : List (String × Json)}
    (h : d.at? trail = some (.map (ofMembers ms))) : d.wire.at? trail = some (.object ms) := by
  rw [wire_at? h nofun, wire, wireEntries_ofMembers]

end Display

end LedgerQuery
