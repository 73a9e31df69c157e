import LedgerQuery.Conformance.Block
import LedgerQuery.Record.Equality
import LedgerQuery.Record.Response

namespace LedgerQuery

open Checked

def checkAccount (account : Option AccountIdentifier) : Checked AccountIdentifier := do
  let a ← present "AccountIdentifier" account
  ensure (a.address ≠ "") (.fieldMissing "AccountIdentifier.address")
  ensure (a.subAccount.all (·.address ≠ "")) (.fieldMissing "AccountIdentifier.sub_account.address")
  return a

def checkCurrency (currency : Option Currency) : Checked Currency := do
  let c ← present "Amount.currency" currency
  ensure (c.symbol ≠ "") (.fieldMissing "Currency.symbol")
  ensure (0 ≤ c.decimals) (.negative "Currency.decimals" c.decimals)
  return c

def isInteger (s : String) : Bool :=
  let digits := match s.toList with
    | '-' :: cs => cs
    | cs => cs
  digits ≠ [] ∧ digits.all Char.isDigit

def checkAmount (amount : Option Amount) : Checked Currency := do
  let a ← present "Amount" amount
  ensure (a.value ≠ "") (.fieldMissing "Amount.value")
  ensure (isInteger a.value) (.notInteger "Amount.value" a.value)
  checkCurrency a.currency

def checkBalance (balance : Option Balance) : Checked AccountIdentifier := do
  let b ← present "Balance" balance
  let account ← checkAccount b.account
  let _ ← distinct (checkAmount ∘ some) Currency.same .repeatedCurrency [] b.amounts
  return account

def checkAccountBalance (block : Option BlockIdentifier) (balances : List (Option Balance)) :
    Checked Unit := do
  let _ ← checkBlock block
  let accounts ← balances.mapM checkBalance
  let _ ← distinct .ok AccountIdentifier.same .repeatedAccount [] accounts

def checkAccountBalanceResponse (response : Option AccountBalanceResponse) : Checked Unit := do
  let r ← present "AccountBalanceResponse" response
  checkAccountBalance r.block (r.balances.map some)

end LedgerQuery
