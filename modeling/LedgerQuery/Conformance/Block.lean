import LedgerQuery.Conformance.Check
import LedgerQuery.Record.Block

namespace LedgerQuery

open Checked

def checkBlock (block : Option BlockIdentifier) : Checked BlockIdentifier := do
  let b ← present "BlockIdentifier" block
  ensure (0 ≤ b.index) (.negative "BlockIdentifier.index" b.index)
  ensure (b.hash ≠ "") (.fieldMissing "BlockIdentifier.hash")
  return b

def checkTimestamp (time : Int) (field : String) : Checked Unit :=
  ensure (0 ≤ time) (.negative field time)

def checkPeer (peer : Option Peer) : Checked Peer := do
  let p ← present "Peer" peer
  ensure (p.peerId ≠ "") (.fieldMissing "Peer.peer_id")
  return p

end LedgerQuery
