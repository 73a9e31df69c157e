import LedgerQuery.Record.Account

namespace LedgerQuery

structure Currency where
  symbol : String
  decimals : Int
  metadata : Option Metadata

structure Amount where
  value : String
  currency : Option Currency
  metadata : Option Metadata

structure Balance where
  account : Option AccountIdentifier
  amounts : List Amount

def Currency.shape : Shape Currency :=
  .record "Currency" <| Currency.mk
    <$> .withDefault "symbol" .text "" (·.symbol)
    <*> .withDefault "decimals" .int 0 (·.decimals)
    <*> .optional "metadata" .metadata (·.metadata)

def Amount.shape : Shape Amount :=
  .record "Amount" <| Amount.mk
    <$> .withDefault "value" .text "" (·.value)
    <*> .optional "currency" Currency.shape (·.currency)
    <*> .optional "metadata" .metadata (·.metadata)

def Balance.shape : Shape Balance :=
  .record "Balance" <| Balance.mk
    <$> .optional "account_identifier" AccountIdentifier.shape (·.account)
    <*> .withDefault "amounts" Amount.shape.list [] (·.amounts)

end LedgerQuery
