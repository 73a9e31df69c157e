import LedgerQuery.Shape.Basic

namespace LedgerQuery

/-- Free-form members that a node may add to a record. -/
abbrev Metadata := List (String × Json)

structure SubNetworkIdentifier where
  network : String
  metadata : Option Metadata

structure NetworkIdentifier where
  blockchain : String
  network : String
  subNetwork : Option SubNetworkIdentifier

def SubNetworkIdentifier.shape : Shape SubNetworkIdentifier :=
  .record "SubNetworkIdentifier" <| SubNetworkIdentifier.mk
    <$> .withDefault "network" .text "" (·.network)
    <*> .optional "metadata" .metadata (·.metadata)

def NetworkIdentifier.shape : Shape NetworkIdentifier :=
  .record "NetworkIdentifier" <| NetworkIdentifier.mk
    <$> .withDefault "blockchain" .text "" (·.blockchain)
    <*> .withDefault "network" .text "" (·.network)
    <*> .optional "sub_network_identifier" SubNetworkIdentifier.shape (·.subNetwork)

end LedgerQuery
