import LedgerQuery.Backoff.Limits
import LedgerQuery.Conformance.Violation
import LedgerQuery.Document.Update
import LedgerQuery.Record.Capability
import LedgerQuery.Settings.Error

namespace LedgerQuery

/-- Something from outside the protocol, known only by its kind and its message. -/
structure Incident where
  kind : String
  message : String
deriving DecidableEq

inductive Undecodable
  | notJson
  | faults (fs : List Fault)

inductive TransportCause
  | unstated
  | stated (message : String)
  | request (path : String) (incident : Incident)
  | mediaType (path contentType : String)
  | undecodable (path model : String) (why : Undecodable)

structure TransportFailure where
  status : Option Int
  cause : TransportCause

namespace TransportFailure

def statusText (t : TransportFailure) : String := toString (t.status.getD 0)

def message (t : TransportFailure) : String :=
  match t.cause with
  | .unstated =>
    match t.status with
    | none | some 0 => "Transport error"
    | some n => s!"Transport error: HTTP {n}"
  | .stated m => m
  | .request path incident => s!"POST {path} failed: {incident.message}"
  | .mediaType path contentType =>
    s!"POST {path}: undefined response type {Text.quoted contentType} (HTTP {t.statusText})"
  | .undecodable path model _ =>
    s!"POST {path}: cannot decode {model} (HTTP {t.statusText}): {faultReport}"

end TransportFailure

inductive AbortReason
  | aborted
  | exhausted
  | cancelled
deriving DecidableEq

def AbortReason.text : AbortReason → String
  | aborted => "aborted"
  | exhausted => "exhausted retries"
  | cancelled => "cancelled"

def AbortReason.label : AbortReason → String
  | aborted => "_FetchAborted"
  | exhausted => "RetriesExhaustedError"
  | cancelled => "CancelledError"

inductive Failure
  | settings (e : SettingsError)
  | document (e : DocumentError)
  | update (e : UpdateError)
  | unknownHost (name : String)
  | limits (e : LimitsError Number)
  | violation (v : Violation)
  | node (error : NodeError) (status : Option Int)
  | transport (t : TransportFailure)
  | invalidRecord (faults : List Fault)
  | noAnswer
  | incident (i : Incident)
  | aborted (reason : AbortReason) (operation context : String) (last : Option Failure)

/-- Whether a node's error may pass if the call is made again; it is taken to be permanent unless it
says otherwise. -/
def NodeError.isRetriable (e : NodeError) : Bool := e.retriable == some true

namespace Failure

def label : Failure → String
  | settings _ => "ConfigError"
  | document e => e.label
  | update e => e.label
  | unknownHost _ => "KeyError"
  | limits _ => "ValueError"
  | violation v => v.label
  | node _ _ => "DomainError"
  | transport _ => "TransportError"
  | invalidRecord _ => "ModelValidationError"
  | noAnswer => "AttributeError"
  | incident i => i.kind
  | aborted reason _ _ _ => reason.label

def kinds : Failure → List String
  | violation v => v.kinds
  | aborted .aborted _ _ _ => ["_FetchAborted"]
  | aborted reason _ _ _ => [reason.label, "_FetchAborted"]
  | f => [f.label]

def message : Failure → String
  | settings e => e.message
  | document e => e.message
  | update e => e.message
  | unknownHost name => Text.quoted name
  | limits e => e.message
  | violation v => v.message
  | node e _ => s!"node error {e.code}: {e.message}"
  | transport t => t.message
  | invalidRecord _ => faultReport
  | noAnswer => ""
  | incident i => i.message
  | aborted reason operation context none => s!"{operation} for {context}: {reason.text}"
  | aborted reason operation context (some last) =>
    s!"{operation} for {context}: {reason.text} (last error: {last.label}: {last.message})"

def isTransient : Failure → Bool
  | node e _ => e.isRetriable
  | transport _ => true
  | _ => false

end Failure

end LedgerQuery
