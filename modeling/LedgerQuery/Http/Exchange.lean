import LedgerQuery.Failure
import LedgerQuery.Json.Reader
import LedgerQuery.Settings.Schema
import LedgerQuery.Text.Blank
import LedgerQuery.Text.LowerCase

namespace LedgerQuery.Http

structure Request where
  method : String
  url : String
  headers : List (String × String)
  body : Json
  connectTimeout : Int
  readTimeout : Int
  verify : Bool

structure Answer where
  status : Int
  headers : List (String × String)
  body : String

inductive Outcome
  | answered (a : Answer)
  | failed (i : Incident)
  | crashed (i : Incident)

def jsonMediaType : String := "application/json"

/-- The value of a header, whose name may be in any case; the last one counts. -/
def header? (name : String) (headers : List (String × String)) : Option String :=
  (headers.reverse.find? fun h => Text.lower h.1 == Text.lower name).map (·.2)

def mediaType (contentType : String) : String :=
  Text.lower (String.ofList (Text.strip Text.isBlank (contentType.toList.takeWhile (· ≠ ';'))))

def contentType (a : Answer) : String := (header? "Content-Type" a.headers).getD ""

def requestHeaders (host : HostSettings) : List (String × String) :=
  insert "Accept" jsonMediaType (insert "Content-Type" jsonMediaType host.headers)

def request (host : HostSettings) (path : String) (body : Json) : Request where
  method := "POST"
  url := host.baseUrl ++ path
  headers := requestHeaders host
  body := body
  connectTimeout := host.transport.connectTimeout
  readTimeout := host.transport.requestTimeout
  verify := host.transport.verifyTls

variable {ρ : Type}

def decode (path model : String) (shape : Shape ρ) (a : Answer) : Except TransportFailure ρ :=
  let fail (cause : TransportCause) : Except TransportFailure ρ := .error ⟨some a.status, cause⟩
  if mediaType (contentType a) ≠ jsonMediaType then fail (.mediaType path (contentType a))
  else
    match Json.read? a.body with
    | none => fail (.undecodable path model .notJson)
    | some j =>
      match shape.read j with
      | .ok r => .ok r
      | .error fs => fail (.undecodable path model (.faults fs))

def interpret (path model : String) (shape : Shape ρ) : Outcome → Except Failure ρ
  | .failed i => .error (.transport ⟨none, .request path i⟩)
  | .crashed i => .error (.incident i)
  | .answered a =>
    if a.status = 200 then (decode path model shape a).mapError .transport
    else
      match decode path "Error" NodeError.shape a with
      | .error t => .error (.transport t)
      | .ok e => .error (.node e (some a.status))

def post {m : Type → Type} [Monad m] (send : Request → m Outcome) (host : HostSettings) (path : String)
    (body : Json) (model : String) (shape : Shape ρ) : m (Except Failure ρ) := do
  return interpret path model shape (← send (request host path body))

end LedgerQuery.Http
