import LedgerQuery.Fetch.World
import LedgerQuery.Http.Exchange

namespace LedgerQuery.Fetch

variable {m : Type → Type} [Monad m]

def host? (settings : Settings) (name : String) : Except Failure HostSettings :=
  match lookup? name settings.hosts with
  | some host => .ok host
  | none => .error (.unknownHost name)

def exchange (send : Http.Request → m Http.Outcome) (host : HostSettings) (op : Operation)
    (request : op.Request) : m (Except Failure op.Response) :=
  Http.post send host op.path (op.requestShape.display request).wire op.responseModel op.responseShape

def callOver (send : Http.Request → m Http.Outcome) (host : HostSettings) (op : Operation)
    (request : op.Request) : m (Except Failure (Option op.Response)) := do
  return (← exchange send host op request).map some

end LedgerQuery.Fetch
