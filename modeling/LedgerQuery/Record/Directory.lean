import LedgerQuery.Record.Request
import LedgerQuery.Record.Response
import LedgerQuery.Settings.Schema

namespace LedgerQuery

def Shape.displayed {α : Type} (s : Shape α) : Shape Display where
  read x := (s.read x).map s.display
  display := id

def recordShapes : List (String × Shape Display) := [
  ("SubNetworkIdentifier", SubNetworkIdentifier.shape.displayed),
  ("NetworkIdentifier", NetworkIdentifier.shape.displayed),
  ("SubAccountIdentifier", SubAccountIdentifier.shape.displayed),
  ("AccountIdentifier", AccountIdentifier.shape.displayed),
  ("Currency", Currency.shape.displayed),
  ("Amount", Amount.shape.displayed),
  ("Balance", Balance.shape.displayed),
  ("BlockIdentifier", BlockIdentifier.shape.displayed),
  ("Peer", Peer.shape.displayed),
  ("Version", Version.shape.displayed),
  ("OperationStatus", OperationStatus.shape.displayed),
  ("Error", NodeError.shape.displayed),
  ("Options", Options.shape.displayed),
  ("MetadataRequest", MetadataRequest.shape.displayed),
  ("NetworkRequest", NetworkRequest.shape.displayed),
  ("AccountBalanceRequest", AccountBalanceRequest.shape.displayed),
  ("NetworkListResponse", NetworkListResponse.shape.displayed),
  ("NetworkOptionsResponse", NetworkOptionsResponse.shape.displayed),
  ("NetworkStatusResponse", NetworkStatusResponse.shape.displayed),
  ("AccountBalanceResponse", AccountBalanceResponse.shape.displayed),
  ("TransportConfig", TransportSettings.shape.displayed),
  ("HostConfig", HostSettings.shape.displayed),
  ("RetryConfig", RetrySettings.shape.displayed),
  ("SettingsConfig", Settings.shape.displayed)]

end LedgerQuery
