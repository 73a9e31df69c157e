import LedgerQuery.Fetch.Call

namespace LedgerQuery

abbrev Operation.Subject : Operation → Type
  | networkList => Option Metadata
  | networkOptions | networkStatus => NetworkIdentifier
  | accountBalance => NetworkIdentifier × AccountIdentifier

def Operation.ask : (op : Operation) → op.Subject → op.Request
  | networkList, metadata => ⟨metadata⟩
  | networkOptions, network | networkStatus, network => ⟨network, none⟩
  | accountBalance, (network, account) => ⟨network, account⟩

namespace Fetch

inductive Form
  | raw
  | checked
  | retried (settings : RetrySettings) (bounds : Bounds)

namespace Form

variable {σ : Type}

/-- Makes the call with a request; only a retried call may not come to an end. -/
def run (w : World σ Number) (form : Form) (op : Operation) (request : op.Request) :
    StateT σ Option (Except Failure op.Result) :=
  match form with
  | raw => fun s => some (Fetch.raw w op request s)
  | checked => fun s => some (Fetch.checked w op request s)
  | retried settings bounds => Fetch.retried w settings op request bounds

def call (w : World σ Number) (form : Form) (op : Operation) (subject : op.Subject) :
    StateT σ Option (Except Failure op.Result) :=
  form.run w op (op.ask subject)

end Form

end Fetch

end LedgerQuery
