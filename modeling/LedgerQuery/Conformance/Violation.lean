import LedgerQuery.Record.Balance

namespace LedgerQuery

inductive Violation
  | general (field : String) (message : Option String)
  | absent (field : String)
  | fieldMissing (field : String)
  | emptyField (field : String)
  | noneSuccessful (field : String)
  | negative (field : String) (value : Int)
  | negativeCode (field : String) (code : Int)
  | notInteger (field : String) (value : String)
  | repeatedCode (code : Int)
  | repeatedCurrency (currency : Currency)
  | repeatedAccount (account : AccountIdentifier)
  | repeatedNetwork (network : NetworkIdentifier)

namespace Violation

def field : Violation → String
  | general f _ | absent f | fieldMissing f | emptyField f | noneSuccessful f => f
  | negative f _ | negativeCode f _ | notInteger f _ => f
  | repeatedCode _ => "Error.code"
  | repeatedCurrency _ => "Balance.amounts"
  | repeatedAccount _ => "Balance.account_identifier"
  | repeatedNetwork _ => "NetworkListResponse.network_identifiers"

def message : Violation → String
  | general f m =>
    match m with
    | none | some "" => s!"{f} is invalid"
    | some text => text
  | absent f => s!"{f} is None"
  | fieldMissing f => s!"{f} is missing"
  | emptyField f => s!"no {f} found"
  | noneSuccessful f => s!"no successful {f} found"
  | negative f n | negativeCode f n => s!"{f} is negative: {n}"
  | notInteger f v => s!"{f} {Text.quoted v} is not an integer"
  | repeatedCode n => s!"error code {n} used multiple times"
  | repeatedCurrency c =>
    let shown := (Currency.shape.display c).written
    s!"currency {shown} used in balance multiple times"
  | repeatedAccount a =>
    let shown := (AccountIdentifier.shape.display a).written
    s!"account identifier {shown} used in balance multiple times"
  | repeatedNetwork n =>
    let shown := (NetworkIdentifier.shape.display n).written
    s!"network identifier {shown} listed multiple times"

def label : Violation → String
  | general _ _ => "ValidationError"
  | absent _ => "IdentifierNilError"
  | fieldMissing _ => "FieldMissingError"
  | emptyField _ => "EmptyFieldError"
  | noneSuccessful _ => "NoSuccessfulStatusError"
  | negative _ _ => "NegativeValueError"
  | negativeCode _ _ => "NegativeCodeError"
  | notInteger _ _ => "InvalidAmountError"
  | repeatedCode _ => "DuplicateErrorCodeError"
  | repeatedCurrency _ => "DuplicateCurrencyError"
  | repeatedAccount _ => "DuplicateAccountIdentifierError"
  | repeatedNetwork _ => "DuplicateNetworkIdentifierError"

def kinds (v : Violation) : List String :=
  match v with
  | general _ _ => [v.label]
  | negativeCode _ _ => [v.label, "NegativeValueError", "ValidationError"]
  | _ => [v.label, "ValidationError"]

end Violation

end LedgerQuery
