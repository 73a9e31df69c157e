import LedgerQuery.Record.Network

namespace LedgerQuery

structure BlockIdentifier where
  index : Int
  hash : String

structure Peer where
  peerId : String
  metadata : Option Metadata

def BlockIdentifier.shape : Shape BlockIdentifier :=
  .record "BlockIdentifier" <| BlockIdentifier.mk
    <$> .withDefault "index" .int 0 (·.index)
    <*> .withDefault "hash" .text "" (·.hash)

def Peer.shape : Shape Peer :=
  .record "Peer" <| Peer.mk
    <$> .withDefault "peer_id" .text "" (·.peerId)
    <*> .optional "metadata" .metadata (·.metadata)

end LedgerQuery
