import LedgerQuery.Record.Network

namespace LedgerQuery

structure SubAccountIdentifier where
  address : String
  metadata : Option Metadata

structure AccountIdentifier where
  address : String
  subAccount : Option SubAccountIdentifier
  metadata : Option Metadata

def SubAccountIdentifier.shape : Shape SubAccountIdentifier :=
  .record "SubAccountIdentifier" <| SubAccountIdentifier.mk
    <$> .withDefault "address" .text "" (·.address)
    <*> .optional "metadata" .metadata (·.metadata)

def AccountIdentifier.shape : Shape AccountIdentifier :=
  .record "AccountIdentifier" <| AccountIdentifier.mk
    <$> .withDefault "address" .text "" (·.address)
    <*> .optional "sub_account" SubAccountIdentifier.shape (·.subAccount)
    <*> .optional "metadata" .metadata (·.metadata)

end LedgerQuery
