import LedgerQuery.Proofs.Fetch.Delivery
import LedgerQuery.Proofs.Shape.Lossless
import LedgerQuery.Proofs.Shape.Tolerance

namespace LedgerQuery

section

open Shape Fields

theorem SubNetworkIdentifier.tolerant : SubNetworkIdentifier.shape.Tolerant :=
  record_tolerant ((withDefault_tolerant text_tolerant).map.optional metadata_tolerant) (by simp)

theorem NetworkIdentifier.tolerant : NetworkIdentifier.shape.Tolerant :=
  record_tolerant ((withDefault_tolerant text_tolerant).map.withDefault text_tolerant
    |>.optional SubNetworkIdentifier.tolerant) (by simp)

theorem SubAccountIdentifier.tolerant : SubAccountIdentifier.shape.Tolerant :=
  record_tolerant ((withDefault_tolerant text_tolerant).map.optional metadata_tolerant) (by simp)

theorem AccountIdentifier.tolerant : AccountIdentifier.shape.Tolerant :=
  record_tolerant ((withDefault_tolerant text_tolerant).map.optional SubAccountIdentifier.tolerant
    |>.optional metadata_tolerant) (by simp)

theorem Currency.tolerant : Currency.shape.Tolerant :=
  record_tolerant ((withDefault_tolerant text_tolerant).map.withDefault int_tolerant
    |>.optional metadata_tolerant) (by simp)

theorem Amount.tolerant : Amount.shape.Tolerant :=
  record_tolerant ((withDefault_tolerant text_tolerant).map.optional Currency.tolerant
    |>.optional metadata_tolerant) (by simp)

theorem Balance.tolerant : Balance.shape.Tolerant :=
  record_tolerant ((optional_tolerant AccountIdentifier.tolerant).map.withDefault Amount.tolerant.list) (by simp)

theorem BlockIdentifier.tolerant : BlockIdentifier.shape.Tolerant :=
  record_tolerant ((withDefault_tolerant int_tolerant).map.withDefault text_tolerant) (by simp)

theorem Peer.tolerant : Peer.shape.Tolerant :=
  record_tolerant ((withDefault_tolerant text_tolerant).map.optional metadata_tolerant) (by simp)

theorem Version.tolerant : Version.shape.Tolerant :=
  record_tolerant ((withDefault_tolerant text_tolerant).map.withDefault text_tolerant
    |>.optional text_tolerant |>.optional metadata_tolerant) (by simp)

theorem OperationStatus.tolerant : OperationStatus.shape.Tolerant :=
  record_tolerant ((withDefault_tolerant text_tolerant).map.withDefault bool_tolerant) (by simp)

theorem NodeError.tolerant : NodeError.shape.Tolerant :=
  record_tolerant ((withDefault_tolerant int_tolerant).map.withDefault text_tolerant
    |>.optional bool_tolerant |>.optional metadata_tolerant) (by simp)

theorem Options.tolerant : Options.shape.Tolerant :=
  record_tolerant ((withDefault_tolerant OperationStatus.tolerant.list).map.withDefault text_tolerant.list
    |>.withDefault NodeError.tolerant.list) (by simp)

theorem Operation.responseShape_tolerant (op : Operation) : op.responseShape.Tolerant := by
  cases op with
  | networkList => exact record_tolerant (withDefault_tolerant NetworkIdentifier.tolerant.list).map (by simp)
  | networkOptions =>
      exact record_tolerant ((optional_tolerant Version.tolerant).map.optional Options.tolerant) (by simp)
  | networkStatus =>
      exact record_tolerant ((optional_tolerant BlockIdentifier.tolerant).map.withDefault int_tolerant
        |>.optional BlockIdentifier.tolerant |>.withDefault Peer.tolerant.list) (by simp)
  | accountBalance =>
      exact record_tolerant ((optional_tolerant BlockIdentifier.tolerant).map.withDefault Balance.tolerant.list)
        (by simp)

end

/-- Whatever is read from an object is read from what is left of it when members are left out, perhaps as another
value, and as the same value when members are added that no record declares. -/
structure Shape.Lenient {α : Type} (s : Shape α) : Prop where
  pruned : ∀ (p q : Json) a, p.Keyed → s.read p = .ok a → p.Pruned q → ∃ b, s.read q = .ok b
  grown : ∀ (p q : Json) a, s.read p = .ok a → s.Grown a p q → s.read q = .ok a

theorem Shape.Tolerant.lenient {α : Type} {s : Shape α} (h : s.Tolerant) : s.Lenient where
  pruned _ _ _ := h.pruned
  grown _ _ _ := h.read_grown

namespace Fetch

variable {σ α : Type} (w : World σ α) (send : Http.Request → StateM σ Http.Outcome) (host : HostSettings)
  (op : Operation) (request : op.Request)

theorem accept_cases {op : Operation} (r : op.Response) :
    (∃ v, accept op (some r) = .ok v) ∨ ∃ v, accept op (some r) = .error (.violation v) := by
  cases hverdict : op.validate (some r) with
  | error v => exact .inr ⟨v, by rw [accept, hverdict]⟩
  | ok u =>
      refine .inl ?_
      rw [accept, hverdict]
      cases op <;> exact ⟨_, rfl⟩

theorem checked_over_pruned {s : σ} {a : Http.Answer} {p q : Json}
    (answered : (send (op.httpRequest host request) s).1 = .answered a)
    (media : Http.mediaType (Http.contentType a) = Http.jsonMediaType) (body : Json.read? a.body = some q)
    (keyed : p.Keyed) (pruned : p.Pruned q) :
    (a.status = 200 → (∃ r, op.responseShape.read p = .ok r) →
      (∃ v, (checked (w.over send host) op request s).1 = .ok v) ∨
        ∃ v, (checked (w.over send host) op request s).1 = .error (.violation v)) ∧
    (a.status ≠ 200 → (∃ e, NodeError.shape.read p = .ok e) →
      ∃ e, (checked (w.over send host) op request s).1 = .error (.node e (some a.status))) := by
  rw [checked_apply, over_call, answered]
  constructor
  · rintro hstatus ⟨r, reads⟩
    obtain ⟨t, ht⟩ := op.responseShape_tolerant.pruned keyed reads pruned
    rw [Http.interpret_eq_ok.mpr ⟨a, rfl, hstatus, media, q, body, ht⟩]
    exact accept_cases t
  · rintro hstatus ⟨e, reads⟩
    obtain ⟨f, hf⟩ := NodeError.tolerant.pruned keyed reads pruned
    rw [Http.interpret_eq_node hstatus ⟨media, q, body, hf⟩]
    exact ⟨f, rfl⟩

/-- Answers and errors of a node are read leniently. So if an answer only lacks members of a readable one, it is
accepted or reported for violating a rule, or it is the error of the node; it never fails in the transport. -/
theorem answers_lenient :
    (∀ op : Operation, op.responseShape.Lenient) ∧ NodeError.shape.Lenient ∧
    ∀ {σ α : Type} (w : World σ α) (send : Http.Request → StateM σ Http.Outcome) (host : HostSettings)
      (op : Operation) (request : op.Request) (s : σ) (a : Http.Answer) (p q : Json),
      (send (op.httpRequest host request) s).1 = .answered a →
      Http.mediaType (Http.contentType a) = Http.jsonMediaType → Json.read? a.body = some q → p.Keyed → p.Pruned q →
      (a.status = 200 → (∃ r, op.responseShape.read p = .ok r) →
        (∃ v, (checked (w.over send host) op request s).1 = .ok v) ∨
          ∃ v, (checked (w.over send host) op request s).1 = .error (.violation v)) ∧
      (a.status ≠ 200 → (∃ e, NodeError.shape.read p = .ok e) →
        ∃ e, (checked (w.over send host) op request s).1 = .error (.node e (some a.status))) :=
  ⟨fun op => op.responseShape_tolerant.lenient, NodeError.tolerant.lenient,
    fun w send host op request _ _ _ _ answered media body keyed pruned =>
      checked_over_pruned w send host op request answered media body keyed pruned⟩

def terse (status : Int) : Http.Request → StateM Nat Http.Outcome := fun _ n =>
  (.answered ⟨status, [("Content-Type", "application/json")], "\x7b\"network_identifiers\": [\x7b\x7d]\x7d"⟩, n + 1)

theorem terse_lenient :
    ((∃ v, (checked (recovering.over (terse 200) localHost) .networkList ⟨none⟩ 0).1 = .ok v) ∨
      ∃ v, (checked (recovering.over (terse 200) localHost) .networkList ⟨none⟩ 0).1 = .error (.violation v)) ∧
    (∃ e, (checked (recovering.over (terse 500) localHost) .networkList ⟨none⟩ 0).1 = .error (.node e (some 500))) ∧
    NetworkListResponse.shape.read (Json.object [("network_identifiers", .array [.object [("network", .string "main"),
      ("shard", .null)]])]) = .ok ⟨[⟨"", "main", none⟩]⟩ := by
  obtain ⟨responses, -, answers⟩ := answers_lenient
  let main : Json := .object [("network", .string "main")]
  let p : Json := .object [("message", .string "busy"), ("network_identifiers", .array [main])]
  let q : Json := .object [("network_identifiers", .array [.object []])]
  have keyed : p.Keyed := by simp [p, main]
  have body : Json.read? "\x7b\"network_identifiers\": [\x7b\x7d]\x7d" = some q := by cbv
  have pruned : p.Pruned q := by
    have hmessage := @Json.Omits.here ("message", .string "busy") [] [("network_identifiers", .array [main])]
    have hname := @Json.Omits.here ("network", .string "main") [] []
    have hnetwork := @Json.Omits.member "network_identifiers" _ _ [] [] (@Json.Omits.element _ _ [] [] hname)
    exact .head hmessage (.single hnetwork)
  refine ⟨?_, ?_, ?_⟩
  · exact (answers recovering (terse 200) localHost .networkList ⟨none⟩ 0 _ p q rfl (by decide +kernel) body keyed
      pruned).1 rfl ⟨⟨[⟨"", "main", none⟩]⟩, rfl⟩
  · exact (answers recovering (terse 500) localHost .networkList ⟨none⟩ 0 _ p q rfl (by decide +kernel) body keyed
      pruned).2 (by decide) ⟨⟨0, "busy", none, none⟩, rfl⟩
  · refine (responses .networkList).grown (.object [("network_identifiers", .array [main])]) _
      ⟨[⟨"", "main", none⟩]⟩ rfl (.single ?_)
    have hmain := @Json.Gains.here "shard" .null [("network", .string "main")] []
    have hall := @Json.Gains.member "shard" .null "network_identifiers" _ _ [] [] _ (by simp)
      (@Json.Gains.element "shard" .null _ _ [] [] _ _ rfl hmain)
    exact ⟨rfl, by decide, hall⟩

end Fetch

end LedgerQuery
