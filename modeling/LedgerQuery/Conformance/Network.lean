import LedgerQuery.Conformance.Block
import LedgerQuery.Record.Equality
import LedgerQuery.Record.Response

namespace LedgerQuery

open Checked

def checkNetwork (network : Option NetworkIdentifier) : Checked NetworkIdentifier := do
  let n ← present "NetworkIdentifier" network
  ensure (n.blockchain ≠ "") (.fieldMissing "NetworkIdentifier.blockchain")
  ensure (n.network ≠ "") (.fieldMissing "NetworkIdentifier.network")
  ensure (n.subNetwork.all (·.network ≠ ""))
    (.fieldMissing "NetworkIdentifier.sub_network_identifier.network")
  return n

def checkVersion (version : Option Version) : Checked Version := do
  let v ← present "Version" version
  ensure (v.node ≠ "") (.fieldMissing "Version.node_version")
  ensure (v.middleware ≠ some "") (.fieldMissing "Version.middleware_version")
  return v

def checkOptions (options : Option Options) : Checked Options := do
  let o ← present "Options" options
  ensure (o.operationStatuses ≠ []) (.emptyField "Options.operation_statuses")
  ensure (o.operationStatuses.any (·.successful)) (.noneSuccessful "Options.operation_statuses")
  ensure (o.operationTypes ≠ []) (.emptyField "Options.operation_types")
  return o

def checkNodeError (error : Option NodeError) : Checked NodeError := do
  let e ← present "Error" error
  ensure (0 ≤ e.code) (.negativeCode "Error.code" e.code)
  ensure (e.message ≠ "") (.fieldMissing "Error.message")
  return e

def checkCatalog (errors : List (Option NodeError)) : Checked Unit := do
  let _ ← distinct checkNodeError (·.code == ·.code) (fun e => .repeatedCode e.code) [] errors

def checkNetworkListResponse (response : Option NetworkListResponse) : Checked Unit := do
  let r ← present "NetworkListResponse" response
  let _ ← distinct (checkNetwork ∘ some) NetworkIdentifier.same .repeatedNetwork [] r.networks

def checkNetworkOptionsResponse (response : Option NetworkOptionsResponse) : Checked Unit := do
  let r ← present "NetworkOptionsResponse" response
  let _ ← checkVersion r.version
  let allow ← checkOptions r.allow
  checkCatalog (allow.errors.map some)

def checkNetworkStatusResponse (response : Option NetworkStatusResponse) : Checked Unit := do
  let r ← present "NetworkStatusResponse" response
  let _ ← checkBlock r.currentBlock
  checkTimestamp r.currentTimestamp "NetworkStatusResponse.current_block_timestamp"
  let _ ← checkBlock r.genesisBlock
  r.peers.forM fun p => (checkPeer (some p)).map fun _ => ()

end LedgerQuery
