import LedgerQuery.Record.Account

namespace LedgerQuery

structure MetadataRequest where
  metadata : Option Metadata

structure NetworkRequest where
  network : NetworkIdentifier
  metadata : Option Metadata

structure AccountBalanceRequest where
  network : NetworkIdentifier
  account : AccountIdentifier

def MetadataRequest.shape : Shape MetadataRequest :=
  .record "MetadataRequest" <| MetadataRequest.mk
    <$> .optional "metadata" .metadata (·.metadata)

def NetworkRequest.shape : Shape NetworkRequest :=
  .record "NetworkRequest" <| NetworkRequest.mk
    <$> .required "network_identifier" NetworkIdentifier.shape (·.network)
    <*> .optional "metadata" .metadata (·.metadata)

def AccountBalanceRequest.shape : Shape AccountBalanceRequest :=
  .record "AccountBalanceRequest" <| AccountBalanceRequest.mk
    <$> .required "network_identifier" NetworkIdentifier.shape (·.network)
    <*> .required "account_identifier" AccountIdentifier.shape (·.account)

end LedgerQuery
