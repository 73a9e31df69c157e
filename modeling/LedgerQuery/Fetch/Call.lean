import LedgerQuery.Backoff.Policy
import LedgerQuery.Fetch.World
import LedgerQuery.Settings.Schema

namespace LedgerQuery

variable {σ α : Type}

namespace Fetch

def raw (w : World σ α) (op : Operation) (request : op.Request) :
    StateM σ (Except Failure op.Result) := do
  match ← w.call op request with
  | .error f => return .error f
  | .ok response => return op.extract response

def accept (op : Operation) (response : Option op.Response) : Except Failure op.Result :=
  match op.validate response with
  | .error v => .error (.violation v)
  | .ok () => op.extract response

/-- What the caller gets for an outcome of the transport: its failure, or its answer once checked. -/
def judge (op : Operation) : Except Failure (Option op.Response) → Except Failure op.Result
  | .error f => .error f
  | .ok response => accept op response

def checked (w : World σ α) (op : Operation) (request : op.Request) :
    StateM σ (Except Failure op.Result) := do
  return judge op (← w.call op request)

section

variable [Add α] [Sub α] [Mul α] [LT α] [LE α] [DecidableLT α] [DecidableLE α]

def exhaust (w : World σ α) (op : Operation) (context : String) (policy : Backoff α) (last : Failure) :
    StateM σ (Except Failure op.Result) := do
  w.log (.gaveUp op.name context policy.retries (policy.elapsed (← w.now)) last)
  return .error (.aborted .exhausted op.name context (some last))

def cancel (w : World σ α) (op : Operation) (context : String) (last : Option Failure) :
    StateM σ (Except Failure op.Result) := do
  w.log (.cancelled op.name context)
  return .error (.aborted .cancelled op.name context last)

/-- What a round of a retried call leads to: the end of the call, or a further round with the policy as it
is then and the failure so far. -/
inductive Round (α ρ : Type)
  | over (result : Except Failure ρ)
  | again (policy : Backoff α) (last : Failure)

/-- From a look at the wish to cancel to the end of the wait after a failure that may pass. -/
def round (w : World σ α) (op : Operation) (request : op.Request) (context : String)
    (policy : Backoff α) (last : Option Failure) : StateM σ (Round α op.Result) := do
  if ← w.cancelled then
    return .over (← cancel w op context last)
  else
    match ← checked w op request with
    | .ok r => return .over (.ok r)
    | .error f =>
      if !f.isTransient then
        return .over (.error f)
      else
        match ← policy.next w.draw w.now with
        | (none, policy) => return .over (← exhaust w op context policy f)
        | (some d, policy) =>
          w.log (.retrying op.name context f d)
          match ← w.wait d with
          | .error i => return .over (.error (.incident i))
          | .ok true => return .over (← cancel w op context (some f))
          | .ok false => return .again policy f

end

end Fetch

section

variable [Add α] [Sub α] [Mul α] [LT α] [LE α] [DecidableLT α] [DecidableLE α]

/-- Rounds from the state of the policy on, until one ends the call. There is no result where none does,
as may be under a policy without a bound on its delays. -/
def World.attempts (w : World σ α) (op : Operation) (request : op.Request) (context : String)
    (policy : Backoff α) (last : Option Failure) : StateT σ Option (Except Failure op.Result) := fun s =>
  match Fetch.round w op request context policy last s with
  | (.over result, s) => some (result, s)
  | (.again policy f, s) => w |>.attempts op request context policy (some f) s
partial_fixpoint

def Fetch.within (w : World σ α) (op : Operation) (request : op.Request) (limits : Limits α) :
    StateT σ Option (Except Failure op.Result) := fun s =>
  let (start, s) := w.now s
  w.attempts op request (op.describe request) (Backoff.begin limits start) none s

end

namespace Fetch

structure Bounds where
  maxElapsed : Option Number
  maxRetries : Option Number

/-- The limits of a call: its own bounds where it has them, and else those of the settings. -/
def Bounds.limits (b : Bounds) (s : RetrySettings) : Limits Number where
  maxElapsed := b.maxElapsed.or (s.maxElapsed.map .float)
  maxRetries := b.maxRetries.getD (.int s.maxRetries)
  initialInterval := .float s.initialInterval
  multiplier := .float s.multiplier
  randomizationFactor := .float s.randomizationFactor
  maxInterval := .float s.maxInterval

def retried (w : World σ Number) (settings : RetrySettings) (op : Operation) (request : op.Request)
    (bounds : Bounds) : StateT σ Option (Except Failure op.Result) :=
  let limits := bounds.limits settings
  match limits.error? with
  | some e => return .error (.limits e)
  | none => within w op request limits

end Fetch

end LedgerQuery
