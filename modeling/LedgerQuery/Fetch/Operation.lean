import LedgerQuery.Conformance.Account
import LedgerQuery.Conformance.Network
import LedgerQuery.Failure
import LedgerQuery.Record.Request

namespace LedgerQuery

inductive Operation
  | networkList
  | networkOptions
  | networkStatus
  | accountBalance
deriving DecidableEq

namespace Operation

def all : List Operation := [networkList, networkOptions, networkStatus, accountBalance]

abbrev Request : Operation → Type
  | networkList => MetadataRequest
  | networkOptions | networkStatus => NetworkRequest
  | accountBalance => AccountBalanceRequest

abbrev Response : Operation → Type
  | networkList => NetworkListResponse
  | networkOptions => NetworkOptionsResponse
  | networkStatus => NetworkStatusResponse
  | accountBalance => AccountBalanceResponse

/-- What the caller gets. A transport that answers with nothing shows as `none`, where there is
something to show. -/
abbrev Result : Operation → Type
  | networkList => List NetworkIdentifier
  | networkOptions => Option NetworkOptionsResponse
  | networkStatus => Option NetworkStatusResponse
  | accountBalance => Option BlockIdentifier × List Balance

def name : Operation → String
  | networkList => "network_list"
  | networkOptions => "network_options"
  | networkStatus => "network_status"
  | accountBalance => "account_balance"

def path : Operation → String
  | networkList => "/network/list"
  | networkOptions => "/network/options"
  | networkStatus => "/network/status"
  | accountBalance => "/account/balance"

def requestShape : (op : Operation) → Shape op.Request
  | networkList => MetadataRequest.shape
  | networkOptions | networkStatus => NetworkRequest.shape
  | accountBalance => AccountBalanceRequest.shape

def responseShape : (op : Operation) → Shape op.Response
  | networkList => NetworkListResponse.shape
  | networkOptions => NetworkOptionsResponse.shape
  | networkStatus => NetworkStatusResponse.shape
  | accountBalance => AccountBalanceResponse.shape

def responseModel : Operation → String
  | networkList => "NetworkListResponse"
  | networkOptions => "NetworkOptionsResponse"
  | networkStatus => "NetworkStatusResponse"
  | accountBalance => "AccountBalanceResponse"

def describeNetwork (n : NetworkIdentifier) : String := s!"network {n.blockchain}/{n.network}"

def describe : (op : Operation) → op.Request → String
  | networkList, _ => "node"
  | networkOptions, r | networkStatus, r => describeNetwork r.network
  | accountBalance, r => s!"account {r.account.address}"

def validate : (op : Operation) → Option op.Response → Checked Unit
  | networkList => checkNetworkListResponse
  | networkOptions => checkNetworkOptionsResponse
  | networkStatus => checkNetworkStatusResponse
  | accountBalance => checkAccountBalanceResponse

def extract : (op : Operation) → Option op.Response → Except Failure op.Result
  | networkList, some r => .ok r.networks
  | networkOptions, r | networkStatus, r => .ok r
  | accountBalance, some r => .ok (r.block, r.balances)
  | networkList, none | accountBalance, none => .error .noAnswer

def displayOption {α : Type} (shape : Shape α) (x : Option α) : Display :=
  shape.optional.display x

def displayResult : (op : Operation) → op.Result → Display
  | networkList, ns => NetworkIdentifier.shape.list.display ns
  | networkOptions, r => displayOption NetworkOptionsResponse.shape r
  | networkStatus, r => displayOption NetworkStatusResponse.shape r
  | accountBalance, (block, balances) =>
    .list [displayOption BlockIdentifier.shape block, Balance.shape.list.display balances]

end Operation

end LedgerQuery
