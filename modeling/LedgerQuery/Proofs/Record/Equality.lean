import LedgerQuery.Record.Equality
import LedgerQuery.Proofs.Json.Reader

namespace LedgerQuery

namespace Display

mutual

/-- All that a display shows, as JSON: a record is an object of all its fields, absent ones with null. -/
def full : Display → Json
  | .null => .null
  | .bool b => .bool b
  | .number n => .number n
  | .text s => .string s
  | .list xs => .array (fullElements xs)
  | .map entries => .object (fullEntries entries)
  | .record _ fields => .object (fullEntries fields)

def fullElements : List Display → List Json
  | [] => []
  | x :: xs => full x :: fullElements xs

def fullEntries : List (String × Display) → List (String × Json)
  | [] => []
  | (k, x) :: rest => (k, full x) :: fullEntries rest

end

mutual

theorem full_ofJson : ∀ j : Json, (ofJson j).full = j
  | .null | .bool _ | .number _ | .string _ => rfl
  | .array xs => by simp [ofJson, full, fullElements_ofElements xs]
  | .object ms => by simp [ofJson, full, fullEntries_ofMembers ms]

theorem fullElements_ofElements : ∀ xs : List Json, fullElements (ofElements xs) = xs
  | [] => rfl
  | x :: xs => by simp [ofElements, fullElements, full_ofJson x, fullElements_ofElements xs]

theorem fullEntries_ofMembers : ∀ ms : List (String × Json), fullEntries (ofMembers ms) = ms
  | [] => rfl
  | (k, x) :: ms => by simp [ofMembers, fullEntries, full_ofJson x, fullEntries_ofMembers ms]

end

end Display

variable {α : Type}

namespace Shape

/-- A value of the shape as JSON, with all its fields. -/
def json (s : Shape α) (a : α) : Json := (s.display a).full

/-- Structural equality of what a shape shows decides sameness of its values, which are objects. -/
structure Decides (s : Shape α) (same : α → α → Bool) : Prop where
  same_eq : ∀ a b, (s.json a).same (s.json b) = same a b
  object : ∀ a, ∃ ms, s.json a = .object ms

theorem Decides.optional {s : Shape α} {same : α → α → Bool} (h : s.Decides same) (a b : Option α) :
    (s.optional.json a).same (s.optional.json b) = sameOption same a b := by
  cases a with
  | none =>
      cases b with
      | none => rfl
      | some b =>
          obtain ⟨ms, hms⟩ := h.object b
          change Json.null.same (s.json b) = false
          rw [hms]
          rfl
  | some a =>
      cases b with
      | none =>
          obtain ⟨ms, hms⟩ := h.object a
          change (s.json a).same .null = false
          rw [hms]
          rfl
      | some b => exact h.same_eq a b

theorem metadata_decides : Shape.metadata.Decides fun a b => (Json.object a).same (.object b) where
  same_eq a b := by simp only [json, metadata, Display.full, Display.fullEntries_ofMembers]
  object _ := ⟨_, rfl⟩

end Shape

namespace Json

theorem same_string (s t : String) : (Json.string s).same (.string t) = (s == t) := by rw [same]

theorem same_int (m n : Int) : (Json.number (.int m)).same (.number (.int n)) = (m == n) := by
  rw [Bool.eq_iff_iff, same, Number.same_iff, Number.value_int, Number.value_int]
  simp

theorem same_metadata (a b : Option Metadata) :
    (Shape.metadata.optional.json a).same (Shape.metadata.optional.json b) = sameMetadata a b := by
  rw [Shape.metadata_decides.optional]
  cases a <;> cases b <;> rfl

theorem same_object (l : List (String × Json × Json)) (distinct : (l.map (·.1)).Nodup) :
    (Json.object (l.map fun e => (e.1, e.2.1))).same (.object (l.map fun e => (e.1, e.2.2))) =
      l.all fun e => e.2.1.same e.2.2 := by
  have hkeys (f : String × Json × Json → Json) : (l.map fun e => (e.1, f e)).map (·.1) = l.map (·.1) := by
    rw [List.map_map]
    rfl
  have hfind (e) (he : e ∈ l) : lookup? e.1 (l.map fun e => (e.1, e.2.2)) = some e.2.2 := by
    refine lookup?_of_mem ?_ (List.mem_map.mpr ⟨e, he, rfl⟩)
    rwa [hkeys]
  rw [Bool.eq_iff_iff, same, Bool.and_eq_true, sameKeys_iff, sameMembers_iff, hkeys, hkeys, List.all_eq_true,
    List.forall_mem_map]
  constructor
  · rintro ⟨-, h⟩ e he
    obtain ⟨y, hy, hsame⟩ := h e he
    rw [hfind e he] at hy
    cases hy
    exact hsame
  · intro h
    exact ⟨fun _ => Iff.rfl, fun e he => ⟨_, hfind e he, h e he⟩⟩

end Json

section

open Json

theorem Currency.decides : Currency.shape.Decides Currency.same where
  same_eq a b := by
    refine (same_object [("symbol", .string a.symbol, .string b.symbol),
      ("decimals", .number (.int a.decimals), .number (.int b.decimals)),
      ("metadata", Shape.metadata.optional.json a.metadata, Shape.metadata.optional.json b.metadata)]
      (by simp)).trans ?_
    simp only [List.all_cons, List.all_nil, Bool.and_true, same_string, same_int, same_metadata, Currency.same,
      Bool.and_assoc]
  object _ := ⟨_, rfl⟩

theorem SubAccountIdentifier.decides : SubAccountIdentifier.shape.Decides SubAccountIdentifier.same where
  same_eq a b := by
    refine (same_object [("address", .string a.address, .string b.address),
      ("metadata", Shape.metadata.optional.json a.metadata, Shape.metadata.optional.json b.metadata)]
      (by simp)).trans ?_
    simp only [List.all_cons, List.all_nil, Bool.and_true, same_string, same_metadata, SubAccountIdentifier.same]
  object _ := ⟨_, rfl⟩

theorem AccountIdentifier.decides : AccountIdentifier.shape.Decides AccountIdentifier.same where
  same_eq a b := by
    refine (same_object [("address", .string a.address, .string b.address),
      ("sub_account", SubAccountIdentifier.shape.optional.json a.subAccount,
        SubAccountIdentifier.shape.optional.json b.subAccount),
      ("metadata", Shape.metadata.optional.json a.metadata, Shape.metadata.optional.json b.metadata)]
      (by simp)).trans ?_
    simp only [List.all_cons, List.all_nil, Bool.and_true, same_string, same_metadata,
      SubAccountIdentifier.decides.optional, AccountIdentifier.same, Bool.and_assoc,
      Bool.and_comm (sameOption _ _ _)]
  object _ := ⟨_, rfl⟩

theorem SubNetworkIdentifier.decides : SubNetworkIdentifier.shape.Decides SubNetworkIdentifier.same where
  same_eq a b := by
    refine (same_object [("network", .string a.network, .string b.network),
      ("metadata", Shape.metadata.optional.json a.metadata, Shape.metadata.optional.json b.metadata)]
      (by simp)).trans ?_
    simp only [List.all_cons, List.all_nil, Bool.and_true, same_string, same_metadata, SubNetworkIdentifier.same]
  object _ := ⟨_, rfl⟩

theorem NetworkIdentifier.decides : NetworkIdentifier.shape.Decides NetworkIdentifier.same where
  same_eq a b := by
    refine (same_object [("blockchain", .string a.blockchain, .string b.blockchain),
      ("network", .string a.network, .string b.network),
      ("sub_network_identifier", SubNetworkIdentifier.shape.optional.json a.subNetwork,
        SubNetworkIdentifier.shape.optional.json b.subNetwork)] (by simp)).trans ?_
    simp only [List.all_cons, List.all_nil, Bool.and_true, same_string, SubNetworkIdentifier.decides.optional,
      NetworkIdentifier.same, Bool.and_assoc]
  object _ := ⟨_, rfl⟩

end

/-- A decision on values that is an equality of all that they show, up to normal form, and exact: nothing that
has `nan` in it is the same as anything. -/
structure Structural (same : α → α → Bool) (json : α → Json) : Prop where
  same_iff : ∀ a b, (json a).Keyed → (json b).Keyed →
    (same a b = true ↔ ¬(json a).HasNan ∧ ¬(json b).HasNan ∧ (json a).normal = (json b).normal)
  symmetric : ∀ a b, (json a).Keyed → (json b).Keyed → same a b = true → same b a = true
  transitive : ∀ a b c, (json a).Keyed → (json b).Keyed → (json c).Keyed → same a b = true → same b c = true →
    same a c = true
  reflexive_iff : ∀ a, (json a).Keyed → (same a a = true ↔ ¬(json a).HasNan)

theorem Structural.of_same {same : α → α → Bool} {json : α → Json}
    (same_eq : ∀ a b, (json a).same (json b) = same a b) : Structural same json := by
  have hiff (a b) (ha : (json a).Keyed) (hb : (json b).Keyed) : same a b = true ↔ (json a).Alike (json b) := by
    rw [← same_eq, Json.same_iff_alike ha hb]
  refine ⟨hiff, fun a b ha hb hab => ?_, fun a b c ha hb hc hab hbc => ?_, fun a ha => ?_⟩
  · rw [hiff b a hb ha]
    obtain ⟨hna, hnb, heq⟩ := (hiff a b ha hb).mp hab
    exact ⟨hnb, hna, heq.symm⟩
  · rw [hiff a c ha hc]
    obtain ⟨hna, -, heq⟩ := (hiff a b ha hb).mp hab
    obtain ⟨-, hnc, heq'⟩ := (hiff b c hb hc).mp hbc
    exact ⟨hna, hnc, heq.trans heq'⟩
  · rw [hiff a a ha ha]
    constructor
    · rintro ⟨hna, -, -⟩
      exact hna
    · intro hna
      exact ⟨hna, hna, rfl⟩

/-- Values that are read from text repeat no key; such values, and records of them, are compared structurally. -/
theorem sameness_structural :
    (∀ text j, Json.read? text = some j → j.Keyed) ∧
      Structural Json.same id ∧ Structural Currency.same Currency.shape.json ∧
      Structural AccountIdentifier.same AccountIdentifier.shape.json ∧
      Structural NetworkIdentifier.same NetworkIdentifier.shape.json :=
  ⟨fun _ _ => Json.read?_keyed, .of_same fun _ _ => rfl, .of_same Currency.decides.same_eq,
    .of_same AccountIdentifier.decides.same_eq, .of_same NetworkIdentifier.decides.same_eq⟩

/-- A whole number and a double are one value where they are equal, and `2 ^ 53 + 1`, which no double is, has a
normal form of its own. A currency is not the same as itself if its metadata has `nan` in it. -/
theorem mixed_sameness :
    (Json.object [("n", .number (.int 9007199254740992)), ("k", .null)]).normal =
        (Json.object [("k", .null), ("n", .number (.float 9007199254740992.0))]).normal ∧
      Json.normal (.number (.int 9007199254740993)) ≠ Json.normal (.number (.float 9007199254740992.0)) ∧
      (Currency.shape.json ⟨"BTC", 8, some [("x", .array [.number (.float (0.0 / 0.0))])]⟩).HasNan := by
  obtain ⟨-, values, currencies, -, -⟩ := sameness_structural
  refine ⟨?_, ?_, ?_⟩
  · exact ((values.same_iff _ _ (by simp) (by simp)).mp (by decide +kernel)).2.2
  · intro heq
    have hsame := (values.same_iff (.number (.int 9007199254740993)) (.number (.float 9007199254740992.0)) (by simp)
      (by simp)).mpr ⟨by simp [Number.value_int], by simp; decide +kernel, heq⟩
    revert hsame
    decide +kernel
  · have hkeyed : (Currency.shape.json ⟨"BTC", 8, some [("x", .array [.number (.float (0.0 / 0.0))])]⟩).Keyed := by
      change Json.Keyed (.object [("symbol", .string "BTC"), ("decimals", .number (.int 8)),
        ("metadata", .object [("x", .array [.number (.float (0.0 / 0.0))])])])
      simp
    by_contra hnan
    have hsame := (currencies.reflexive_iff _ hkeyed).mpr hnan
    revert hsame
    decide +kernel

end LedgerQuery
