import LedgerQuery.Json.Equality
import LedgerQuery.Record.Balance

namespace LedgerQuery

def sameMetadata : Option Metadata → Option Metadata → Bool
  | none, none => true
  | some a, some b => (Json.object a).same (.object b)
  | _, _ => false

def Currency.same (a b : Currency) : Bool :=
  a.symbol == b.symbol && a.decimals == b.decimals && sameMetadata a.metadata b.metadata

def SubAccountIdentifier.same (a b : SubAccountIdentifier) : Bool :=
  a.address == b.address && sameMetadata a.metadata b.metadata

def SubNetworkIdentifier.same (a b : SubNetworkIdentifier) : Bool :=
  a.network == b.network && sameMetadata a.metadata b.metadata

def sameOption {α : Type} (same : α → α → Bool) : Option α → Option α → Bool
  | none, none => true
  | some a, some b => same a b
  | _, _ => false

def AccountIdentifier.same (a b : AccountIdentifier) : Bool :=
  a.address == b.address && sameMetadata a.metadata b.metadata &&
    sameOption SubAccountIdentifier.same a.subAccount b.subAccount

def NetworkIdentifier.same (a b : NetworkIdentifier) : Bool :=
  a.blockchain == b.blockchain && a.network == b.network &&
    sameOption SubNetworkIdentifier.same a.subNetwork b.subNetwork

end LedgerQuery
