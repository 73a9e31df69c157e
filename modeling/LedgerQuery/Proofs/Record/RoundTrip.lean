import LedgerQuery.Proofs.Fetch.Delivery
import LedgerQuery.Proofs.Shape.Lossless

namespace LedgerQuery

section

open Shape Fields

theorem SubNetworkIdentifier.lossless : SubNetworkIdentifier.shape.Lossless :=
  record_lossless ((withDefault_lossless text_lossless).map.optional metadata_lossless) rfl (by simp)

theorem NetworkIdentifier.lossless : NetworkIdentifier.shape.Lossless :=
  record_lossless ((withDefault_lossless text_lossless).map.withDefault text_lossless
    |>.optional SubNetworkIdentifier.lossless) rfl (by simp)

theorem SubAccountIdentifier.lossless : SubAccountIdentifier.shape.Lossless :=
  record_lossless ((withDefault_lossless text_lossless).map.optional metadata_lossless) rfl (by simp)

theorem AccountIdentifier.lossless : AccountIdentifier.shape.Lossless :=
  record_lossless ((withDefault_lossless text_lossless).map.optional SubAccountIdentifier.lossless
    |>.optional metadata_lossless) rfl (by simp)

theorem Currency.lossless : Currency.shape.Lossless :=
  record_lossless ((withDefault_lossless text_lossless).map.withDefault int_lossless
    |>.optional metadata_lossless) rfl (by simp)

theorem Amount.lossless : Amount.shape.Lossless :=
  record_lossless ((withDefault_lossless text_lossless).map.optional Currency.lossless
    |>.optional metadata_lossless) rfl (by simp)

theorem Balance.lossless : Balance.shape.Lossless :=
  record_lossless ((optional_lossless AccountIdentifier.lossless).map.withDefault Amount.lossless.list)
    rfl (by simp)

theorem BlockIdentifier.lossless : BlockIdentifier.shape.Lossless :=
  record_lossless ((withDefault_lossless int_lossless).map.withDefault text_lossless) rfl (by simp)

theorem Peer.lossless : Peer.shape.Lossless :=
  record_lossless ((withDefault_lossless text_lossless).map.optional metadata_lossless) rfl (by simp)

theorem Version.lossless : Version.shape.Lossless :=
  record_lossless ((withDefault_lossless text_lossless).map.withDefault text_lossless
    |>.optional text_lossless |>.optional metadata_lossless) rfl (by simp)

theorem OperationStatus.lossless : OperationStatus.shape.Lossless :=
  record_lossless ((withDefault_lossless text_lossless).map.withDefault bool_lossless) rfl (by simp)

theorem NodeError.lossless : NodeError.shape.Lossless :=
  record_lossless ((withDefault_lossless int_lossless).map.withDefault text_lossless
    |>.optional bool_lossless |>.optional metadata_lossless) rfl (by simp)

theorem Options.lossless : Options.shape.Lossless :=
  record_lossless ((withDefault_lossless OperationStatus.lossless.list).map.withDefault text_lossless.list
    |>.withDefault NodeError.lossless.list) rfl (by simp)

theorem MetadataRequest.lossless : MetadataRequest.shape.Lossless :=
  record_lossless ((optional_lossless metadata_lossless).map) rfl (by simp)

theorem NetworkRequest.lossless : NetworkRequest.shape.Lossless :=
  record_lossless ((required_lossless NetworkIdentifier.lossless).map.optional metadata_lossless)
    rfl (by simp)

theorem AccountBalanceRequest.lossless : AccountBalanceRequest.shape.Lossless :=
  record_lossless ((required_lossless NetworkIdentifier.lossless).map.required AccountIdentifier.lossless)
    rfl (by simp)

theorem NetworkListResponse.lossless : NetworkListResponse.shape.Lossless :=
  record_lossless ((withDefault_lossless NetworkIdentifier.lossless.list).map) rfl (by simp)

theorem NetworkOptionsResponse.lossless : NetworkOptionsResponse.shape.Lossless :=
  record_lossless ((optional_lossless Version.lossless).map.optional Options.lossless) rfl (by simp)

theorem NetworkStatusResponse.lossless : NetworkStatusResponse.shape.Lossless :=
  record_lossless ((optional_lossless BlockIdentifier.lossless).map.withDefault int_lossless
    |>.optional BlockIdentifier.lossless |>.withDefault Peer.lossless.list) rfl (by simp)

theorem AccountBalanceResponse.lossless : AccountBalanceResponse.shape.Lossless :=
  record_lossless ((optional_lossless BlockIdentifier.lossless).map.withDefault Balance.lossless.list)
    rfl (by simp)

end

inductive Model
  | subNetworkIdentifier
  | networkIdentifier
  | subAccountIdentifier
  | accountIdentifier
  | currency
  | amount
  | balance
  | blockIdentifier
  | peer
  | version
  | operationStatus
  | nodeError
  | options
  | metadataRequest
  | networkRequest
  | accountBalanceRequest
  | networkListResponse
  | networkOptionsResponse
  | networkStatusResponse
  | accountBalanceResponse

namespace Model

abbrev Record : Model → Type
  | subNetworkIdentifier => SubNetworkIdentifier
  | networkIdentifier => NetworkIdentifier
  | subAccountIdentifier => SubAccountIdentifier
  | accountIdentifier => AccountIdentifier
  | currency => Currency
  | amount => Amount
  | balance => Balance
  | blockIdentifier => BlockIdentifier
  | peer => Peer
  | version => Version
  | operationStatus => OperationStatus
  | nodeError => NodeError
  | options => Options
  | metadataRequest => MetadataRequest
  | networkRequest => NetworkRequest
  | accountBalanceRequest => AccountBalanceRequest
  | networkListResponse => NetworkListResponse
  | networkOptionsResponse => NetworkOptionsResponse
  | networkStatusResponse => NetworkStatusResponse
  | accountBalanceResponse => AccountBalanceResponse

def shape : (m : Model) → Shape m.Record
  | subNetworkIdentifier => SubNetworkIdentifier.shape
  | networkIdentifier => NetworkIdentifier.shape
  | subAccountIdentifier => SubAccountIdentifier.shape
  | accountIdentifier => AccountIdentifier.shape
  | currency => Currency.shape
  | amount => Amount.shape
  | balance => Balance.shape
  | blockIdentifier => BlockIdentifier.shape
  | peer => Peer.shape
  | version => Version.shape
  | operationStatus => OperationStatus.shape
  | nodeError => NodeError.shape
  | options => Options.shape
  | metadataRequest => MetadataRequest.shape
  | networkRequest => NetworkRequest.shape
  | accountBalanceRequest => AccountBalanceRequest.shape
  | networkListResponse => NetworkListResponse.shape
  | networkOptionsResponse => NetworkOptionsResponse.shape
  | networkStatusResponse => NetworkStatusResponse.shape
  | accountBalanceResponse => AccountBalanceResponse.shape

theorem shape_lossless (m : Model) : m.shape.Lossless := by
  cases m with
  | subNetworkIdentifier => exact SubNetworkIdentifier.lossless
  | networkIdentifier => exact NetworkIdentifier.lossless
  | subAccountIdentifier => exact SubAccountIdentifier.lossless
  | accountIdentifier => exact AccountIdentifier.lossless
  | currency => exact Currency.lossless
  | amount => exact Amount.lossless
  | balance => exact Balance.lossless
  | blockIdentifier => exact BlockIdentifier.lossless
  | peer => exact Peer.lossless
  | version => exact Version.lossless
  | operationStatus => exact OperationStatus.lossless
  | nodeError => exact NodeError.lossless
  | options => exact Options.lossless
  | metadataRequest => exact MetadataRequest.lossless
  | networkRequest => exact NetworkRequest.lossless
  | accountBalanceRequest => exact AccountBalanceRequest.lossless
  | networkListResponse => exact NetworkListResponse.lossless
  | networkOptionsResponse => exact NetworkOptionsResponse.lossless
  | networkStatusResponse => exact NetworkStatusResponse.lossless
  | accountBalanceResponse => exact AccountBalanceResponse.lossless

end Model

theorem Operation.requestShape_lossless (op : Operation) : op.requestShape.Lossless := by
  cases op with
  | networkList => exact MetadataRequest.lossless
  | networkOptions | networkStatus => exact NetworkRequest.lossless
  | accountBalance => exact AccountBalanceRequest.lossless

variable {α : Type}

theorem Shape.Lossless.wire_injective {s : Shape α} (h : s.Lossless) :
    Function.Injective fun a => (s.display a).wire := by
  intro a b (hab : (s.display a).wire = (s.display b).wire)
  have hread := h.reread a
  rw [hab, h.reread] at hread
  cases hread
  rfl

/-- The wire form of a record has just what the record has. -/
structure Conveys (s : Shape α) (a : α) : Prop where
  reread : s.read (s.display a).wire = .ok a
  /-- At a record, at whatever depth, no field is null. -/
  no_null_field : ∀ trail name fields, (s.display a).at? trail = some (.record name fields) →
    ∀ key, (s.display a).wire.at? (trail ++ [.inl key]) ≠ some .null
  /-- Free-form members are sent as they are, at the place where the record has them. -/
  members : ∀ trail ms, (s.display a).at? trail = some (.map (Display.ofMembers ms)) →
    (s.display a).wire.at? trail = some (.object ms)

theorem Shape.Lossless.conveys {s : Shape α} (h : s.Lossless) (a : α) : Conveys s a where
  reread := h.reread a
  no_null_field _ _ _ hrecord := Display.wire_field_ne_null hrecord
  members _ _ hmembers := Display.wire_members hmembers

/-- The records of the protocol, however they came about, survive being sent; and of two requests of an
operation each has its own body. -/
theorem wire_conveys :
    (∀ (m : Model) (r : m.Record), Conveys m.shape r) ∧
      ∀ (op : Operation) (host : HostSettings),
        Function.Injective fun request : op.Request => (op.httpRequest host request).body :=
  ⟨fun m r => m.shape_lossless.conveys r, fun op _ => op.requestShape_lossless.wire_injective⟩

end LedgerQuery
