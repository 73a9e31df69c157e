import LedgerQuery.Proofs.Record.Equality
import LedgerQuery.Proofs.Shape.Reading
import LedgerQuery.Record.Response

namespace LedgerQuery

section

variable {α ρ : Type}

namespace Shape

def Tidy (s : Shape α) : Prop := ∀ (j : Json) a, j.Keyed → s.read j = .ok a → (s.json a).Keyed

variable {s : Shape α}

theorem json_none : s.optional.json none = .null := rfl

theorem json_some (a : α) : s.optional.json (some a) = s.json a := rfl

theorem json_metadata (ms : List (String × Json)) : metadata.json ms = .object ms := by
  simp only [json, metadata, Display.full, Display.fullEntries_ofMembers]

theorem metadata_tidy : metadata.Tidy := by
  intro j ms hj h
  cases j with
  | object ns =>
      cases h
      rwa [json_metadata]
  | _ => cases h

theorem Tidy.optional (h : s.Tidy) : s.optional.Tidy := by
  intro j o hj ho
  cases o with
  | none => exact Json.keyed_null
  | some a => exact h j a hj (optional_read ho rfl)

theorem json_list (as : List α) : s.list.json as = .array (as.map s.json) := by
  have helements : ∀ as : List α, Display.fullElements (as.map s.display) = as.map s.json := by
    intro as
    induction as with
    | nil => rfl
    | cons a as ih => rw [List.map_cons, Display.fullElements, ih, List.map_cons, json]
  exact congrArg Json.array (helements as)

theorem keyed_of_list {as : List α} (h : (s.list.json as).Keyed) : ∀ a ∈ as, (s.json a).Keyed := by
  rw [json_list, Json.keyed_array] at h
  exact List.forall_mem_map.mp h

theorem Tidy.list (h : s.Tidy) : s.list.Tidy := by
  intro j as hj has
  cases j with
  | array xs =>
      rw [json_list, Json.keyed_array, List.forall_mem_map]
      intro a ha
      obtain ⟨⟨x, i⟩, hx, hread⟩ := List.mem_map.mp (Reading.mem_of_all has ha)
      exact h x a (Json.keyed_array.mp hj x (List.fst_mem_of_mem_zipIdx hx)) (Reading.under_eq_ok.mp hread)
  | _ => cases has

theorem record_read_json {name : String} {fields : Fields ρ ρ} {j : Json} {r : ρ} (hj : j.Keyed)
    (h : (Shape.record name fields).read j = .ok r) :
    ∃ ms : List (String × Json), (∀ m ∈ ms, m.2.Keyed) ∧ fields.read (ms.map fun m => (.text m.1, m.2)) = .ok r := by
  cases j with
  | object ms => exact ⟨ms, (Json.keyed_object.mp hj).2, h⟩
  | _ => cases h

end Shape

theorem Fields.withDefault_tidy {name : String} {s : Shape α} {value a : α} {get : ρ → α} (hs : s.Tidy)
    (hvalue : (s.json value).Keyed) {ms : List (String × Json)} (hms : ∀ m ∈ ms, m.2.Keyed)
    (h : (withDefault name s value get).read (ms.map fun m => (.text m.1, m.2)) = .ok a) : (s.json a).Keyed := by
  simp only [withDefault, valueUnder?_json] at h
  cases hx : lookup? name ms with
  | none =>
      rw [hx] at h
      cases h
      exact hvalue
  | some x =>
      rw [hx] at h
      exact hs x a (hms _ (mem_of_lookup? hx)) (Reading.under_eq_ok.mp h)

theorem Fields.optional_tidy {name : String} {s : Shape α} {o : Option α} {get : ρ → Option α} (hs : s.Tidy)
    {ms : List (String × Json)} (hms : ∀ m ∈ ms, m.2.Keyed)
    (h : (optional name s get).read (ms.map fun m => (.text m.1, m.2)) = .ok o) : (s.optional.json o).Keyed := by
  have hnone : (s.optional.json none).Keyed := Json.keyed_null
  exact withDefault_tidy hs.optional hnone hms h

end

theorem SubNetworkIdentifier.tidy : SubNetworkIdentifier.shape.Tidy := by
  intro j n hj h
  obtain ⟨ms, hms, h₀⟩ := Shape.record_read_json hj h
  obtain ⟨_, metadata, h₁, hmetadata, rfl⟩ := Fields.seq_read.mp h₀
  obtain ⟨network, -, rfl⟩ := Fields.map_read.mp h₁
  have hkeyed := Fields.optional_tidy Shape.metadata_tidy hms hmetadata
  change Json.Keyed (.object [("network", .string network), ("metadata", Shape.metadata.optional.json metadata)])
  simp [hkeyed]

theorem NetworkIdentifier.tidy : NetworkIdentifier.shape.Tidy := by
  intro j n hj h
  obtain ⟨ms, hms, h₀⟩ := Shape.record_read_json hj h
  obtain ⟨_, subNetwork, h₁, hsub, rfl⟩ := Fields.seq_read.mp h₀
  obtain ⟨_, network, h₂, -, rfl⟩ := Fields.seq_read.mp h₁
  obtain ⟨blockchain, -, rfl⟩ := Fields.map_read.mp h₂
  have hkeyed := Fields.optional_tidy SubNetworkIdentifier.tidy hms hsub
  change Json.Keyed (.object [("blockchain", .string blockchain), ("network", .string network),
    ("sub_network_identifier", SubNetworkIdentifier.shape.optional.json subNetwork)])
  simp [hkeyed]

theorem NetworkListResponse.keyed {text : String} {j : Json} {r : NetworkListResponse}
    (parses : Json.read? text = some j) (decodes : NetworkListResponse.shape.read j = .ok r) :
    ∀ n ∈ r.networks, (NetworkIdentifier.shape.json n).Keyed := by
  obtain ⟨ms, hms, h⟩ := Shape.record_read_json (Json.read?_keyed parses) decodes
  obtain ⟨networks, hnetworks, rfl⟩ := Fields.map_read.mp h
  have hempty : (NetworkIdentifier.shape.list.json []).Keyed := Json.keyed_array.mpr (List.forall_mem_nil _)
  have hkeyed := Fields.withDefault_tidy NetworkIdentifier.tidy.list hempty hms hnetworks
  rwa [Shape.json_list, Json.keyed_array, List.forall_mem_map] at hkeyed

theorem SubNetworkIdentifier.json_eq (n : SubNetworkIdentifier) : SubNetworkIdentifier.shape.json n =
    .object [("network", .string n.network), ("metadata", Shape.metadata.optional.json n.metadata)] := rfl

theorem NetworkIdentifier.json_eq (n : NetworkIdentifier) : NetworkIdentifier.shape.json n =
    .object [("blockchain", .string n.blockchain), ("network", .string n.network),
      ("sub_network_identifier", SubNetworkIdentifier.shape.optional.json n.subNetwork)] := rfl

theorem NetworkListResponse.json_eq (r : NetworkListResponse) : NetworkListResponse.shape.json r =
    .object [("network_identifiers", NetworkIdentifier.shape.list.json r.networks)] := rfl

theorem NetworkListResponse.tidy : NetworkListResponse.shape.Tidy := by
  intro j r hj h
  obtain ⟨ms, hms, h₀⟩ := Shape.record_read_json hj h
  obtain ⟨networks, hnetworks, rfl⟩ := Fields.map_read.mp h₀
  have hempty : (NetworkIdentifier.shape.list.json []).Keyed := Json.keyed_array.mpr (List.forall_mem_nil _)
  have hkeyed := Fields.withDefault_tidy NetworkIdentifier.tidy.list hempty hms hnetworks
  rw [NetworkListResponse.json_eq]
  simp [hkeyed]

theorem SubAccountIdentifier.json_eq (a : SubAccountIdentifier) : SubAccountIdentifier.shape.json a =
    .object [("address", .string a.address), ("metadata", Shape.metadata.optional.json a.metadata)] := rfl

theorem SubAccountIdentifier.tidy : SubAccountIdentifier.shape.Tidy := by
  intro j a hj h
  obtain ⟨ms, hms, h₀⟩ := Shape.record_read_json hj h
  obtain ⟨_, metadata, h₁, hmetadata, rfl⟩ := Fields.seq_read.mp h₀
  obtain ⟨address, -, rfl⟩ := Fields.map_read.mp h₁
  have hkeyed := Fields.optional_tidy Shape.metadata_tidy hms hmetadata
  rw [SubAccountIdentifier.json_eq]
  simp [hkeyed]

theorem AccountIdentifier.json_eq (a : AccountIdentifier) : AccountIdentifier.shape.json a =
    .object [("address", .string a.address),
      ("sub_account", SubAccountIdentifier.shape.optional.json a.subAccount),
      ("metadata", Shape.metadata.optional.json a.metadata)] := rfl

theorem AccountIdentifier.tidy : AccountIdentifier.shape.Tidy := by
  intro j a hj h
  obtain ⟨ms, hms, h₀⟩ := Shape.record_read_json hj h
  obtain ⟨_, metadata, h₁, hmetadata, rfl⟩ := Fields.seq_read.mp h₀
  obtain ⟨_, subAccount, h₂, hsub, rfl⟩ := Fields.seq_read.mp h₁
  obtain ⟨address, -, rfl⟩ := Fields.map_read.mp h₂
  have hkeyed := Fields.optional_tidy Shape.metadata_tidy hms hmetadata
  have hsub := Fields.optional_tidy SubAccountIdentifier.tidy hms hsub
  rw [AccountIdentifier.json_eq]
  simp [hkeyed, hsub]

theorem Currency.json_eq (c : Currency) : Currency.shape.json c =
    .object [("symbol", .string c.symbol), ("decimals", .number (.int c.decimals)),
      ("metadata", Shape.metadata.optional.json c.metadata)] := rfl

theorem Currency.tidy : Currency.shape.Tidy := by
  intro j c hj h
  obtain ⟨ms, hms, h₀⟩ := Shape.record_read_json hj h
  obtain ⟨_, metadata, h₁, hmetadata, rfl⟩ := Fields.seq_read.mp h₀
  obtain ⟨_, decimals, h₂, -, rfl⟩ := Fields.seq_read.mp h₁
  obtain ⟨symbol, -, rfl⟩ := Fields.map_read.mp h₂
  have hkeyed := Fields.optional_tidy Shape.metadata_tidy hms hmetadata
  rw [Currency.json_eq]
  simp [hkeyed]

theorem Amount.json_eq (a : Amount) : Amount.shape.json a =
    .object [("value", .string a.value), ("currency", Currency.shape.optional.json a.currency),
      ("metadata", Shape.metadata.optional.json a.metadata)] := rfl

theorem Amount.tidy : Amount.shape.Tidy := by
  intro j a hj h
  obtain ⟨ms, hms, h₀⟩ := Shape.record_read_json hj h
  obtain ⟨_, metadata, h₁, hmetadata, rfl⟩ := Fields.seq_read.mp h₀
  obtain ⟨_, currency, h₂, hcurrency, rfl⟩ := Fields.seq_read.mp h₁
  obtain ⟨value, -, rfl⟩ := Fields.map_read.mp h₂
  have hkeyed := Fields.optional_tidy Shape.metadata_tidy hms hmetadata
  have hcurrency := Fields.optional_tidy Currency.tidy hms hcurrency
  rw [Amount.json_eq]
  simp [hkeyed, hcurrency]

theorem Balance.json_eq (b : Balance) : Balance.shape.json b =
    .object [("account_identifier", AccountIdentifier.shape.optional.json b.account),
      ("amounts", Amount.shape.list.json b.amounts)] := rfl

theorem Balance.tidy : Balance.shape.Tidy := by
  intro j b hj h
  obtain ⟨ms, hms, h₀⟩ := Shape.record_read_json hj h
  obtain ⟨_, amounts, h₁, hamounts, rfl⟩ := Fields.seq_read.mp h₀
  obtain ⟨account, haccount, rfl⟩ := Fields.map_read.mp h₁
  have hempty : (Amount.shape.list.json []).Keyed := Json.keyed_array.mpr (List.forall_mem_nil _)
  have hamounts := Fields.withDefault_tidy Amount.tidy.list hempty hms hamounts
  have haccount := Fields.optional_tidy AccountIdentifier.tidy hms haccount
  rw [Balance.json_eq]
  simp [haccount, hamounts]

theorem BlockIdentifier.json_eq (b : BlockIdentifier) : BlockIdentifier.shape.json b =
    .object [("index", .number (.int b.index)), ("hash", .string b.hash)] := rfl

theorem BlockIdentifier.tidy : BlockIdentifier.shape.Tidy := by
  intro j b _ _
  simp [BlockIdentifier.json_eq]

theorem AccountBalanceResponse.json_eq (r : AccountBalanceResponse) : AccountBalanceResponse.shape.json r =
    .object [("block_identifier", BlockIdentifier.shape.optional.json r.block),
      ("balances", Balance.shape.list.json r.balances)] := rfl

theorem AccountBalanceResponse.tidy : AccountBalanceResponse.shape.Tidy := by
  intro j r hj h
  obtain ⟨ms, hms, h₀⟩ := Shape.record_read_json hj h
  obtain ⟨_, balances, h₁, hbalances, rfl⟩ := Fields.seq_read.mp h₀
  obtain ⟨block, hblock, rfl⟩ := Fields.map_read.mp h₁
  have hempty : (Balance.shape.list.json []).Keyed := Json.keyed_array.mpr (List.forall_mem_nil _)
  have hbalances := Fields.withDefault_tidy Balance.tidy.list hempty hms hbalances
  have hblock := Fields.optional_tidy BlockIdentifier.tidy hms hblock
  rw [AccountBalanceResponse.json_eq]
  simp [hblock, hbalances]

theorem NodeError.json_eq (e : NodeError) : NodeError.shape.json e =
    .object [("code", .number (.int e.code)), ("message", .string e.message),
      ("retriable", Shape.bool.optional.json e.retriable), ("details", Shape.metadata.optional.json e.details)] := rfl

theorem NodeError.tidy : NodeError.shape.Tidy := by
  intro j e hj h
  obtain ⟨ms, hms, h₀⟩ := Shape.record_read_json hj h
  obtain ⟨_, details, h₁, hdetails, rfl⟩ := Fields.seq_read.mp h₀
  obtain ⟨_, retriable, h₂, -, rfl⟩ := Fields.seq_read.mp h₁
  obtain ⟨_, message, h₃, -, rfl⟩ := Fields.seq_read.mp h₂
  obtain ⟨code, -, rfl⟩ := Fields.map_read.mp h₃
  have hkeyed := Fields.optional_tidy Shape.metadata_tidy hms hdetails
  have hretriable : (Shape.bool.optional.json retriable).Keyed := by
    cases retriable
    · exact Json.keyed_null
    · exact Json.keyed_bool _
  rw [NodeError.json_eq]
  simp [hkeyed, hretriable]

theorem OperationStatus.tidy : OperationStatus.shape.Tidy := by
  intro j o _ _
  change Json.Keyed (.object [("status", .string o.status), ("successful", .bool o.successful)])
  simp

theorem Shape.text_list_tidy : Shape.text.list.Tidy := by
  have htext : Shape.text.Tidy := fun j t _ _ => Json.keyed_string t
  exact htext.list

theorem Options.json_eq (o : Options) : Options.shape.json o =
    .object [("operation_statuses", OperationStatus.shape.list.json o.operationStatuses),
      ("operation_types", Shape.text.list.json o.operationTypes),
      ("errors", NodeError.shape.list.json o.errors)] := rfl

theorem Options.tidy : Options.shape.Tidy := by
  intro j o hj h
  obtain ⟨ms, hms, h₀⟩ := Shape.record_read_json hj h
  obtain ⟨_, errors, h₁, herrors, rfl⟩ := Fields.seq_read.mp h₀
  obtain ⟨_, types, h₂, htypes, rfl⟩ := Fields.seq_read.mp h₁
  obtain ⟨statuses, hstatuses, rfl⟩ := Fields.map_read.mp h₂
  have hstatuses := Fields.withDefault_tidy OperationStatus.tidy.list (Json.keyed_array.mpr (List.forall_mem_nil _))
    hms hstatuses
  have htypes := Fields.withDefault_tidy Shape.text_list_tidy (Json.keyed_array.mpr (List.forall_mem_nil _)) hms htypes
  have herrors := Fields.withDefault_tidy NodeError.tidy.list (Json.keyed_array.mpr (List.forall_mem_nil _)) hms herrors
  rw [Options.json_eq]
  simp [hstatuses, htypes, herrors]

theorem NetworkOptionsResponse.catalog_keyed {j : Json} {r : NetworkOptionsResponse} (hj : j.Keyed)
    (h : NetworkOptionsResponse.shape.read j = .ok r) :
    ∀ o ∈ r.allow, ∀ e ∈ o.errors, (NodeError.shape.json e).Keyed := by
  obtain ⟨ms, hms, h₀⟩ := Shape.record_read_json hj h
  obtain ⟨_, allow, h₁, hallow, rfl⟩ := Fields.seq_read.mp h₀
  obtain ⟨version, -, rfl⟩ := Fields.map_read.mp h₁
  rintro o ⟨⟩
  have hoptions : (Options.shape.json o).Keyed := Fields.optional_tidy Options.tidy hms hallow
  rw [Options.json_eq, Json.keyed_object] at hoptions
  exact Shape.keyed_of_list (hoptions.2 ("errors", NodeError.shape.list.json o.errors) (by simp))

end LedgerQuery
