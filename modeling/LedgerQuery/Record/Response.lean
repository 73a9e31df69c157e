import LedgerQuery.Record.Balance
import LedgerQuery.Record.Block
import LedgerQuery.Record.Capability

namespace LedgerQuery

structure NetworkListResponse where
  networks : List NetworkIdentifier

structure NetworkOptionsResponse where
  version : Option Version
  allow : Option Options

structure NetworkStatusResponse where
  currentBlock : Option BlockIdentifier
  currentTimestamp : Int
  genesisBlock : Option BlockIdentifier
  peers : List Peer

structure AccountBalanceResponse where
  block : Option BlockIdentifier
  balances : List Balance

def NetworkListResponse.shape : Shape NetworkListResponse :=
  .record "NetworkListResponse" <| NetworkListResponse.mk
    <$> .withDefault "network_identifiers" NetworkIdentifier.shape.list [] (·.networks)

def NetworkOptionsResponse.shape : Shape NetworkOptionsResponse :=
  .record "NetworkOptionsResponse" <| NetworkOptionsResponse.mk
    <$> .optional "version" Version.shape (·.version)
    <*> .optional "allow" Options.shape (·.allow)

def NetworkStatusResponse.shape : Shape NetworkStatusResponse :=
  .record "NetworkStatusResponse" <| NetworkStatusResponse.mk
    <$> .optional "current_block_identifier" BlockIdentifier.shape (·.currentBlock)
    <*> .withDefault "current_block_timestamp" .int 0 (·.currentTimestamp)
    <*> .optional "genesis_block_identifier" BlockIdentifier.shape (·.genesisBlock)
    <*> .withDefault "peers" Peer.shape.list [] (·.peers)

def AccountBalanceResponse.shape : Shape AccountBalanceResponse :=
  .record "AccountBalanceResponse" <| AccountBalanceResponse.mk
    <$> .optional "block_identifier" BlockIdentifier.shape (·.block)
    <*> .withDefault "balances" Balance.shape.list [] (·.balances)

end LedgerQuery
