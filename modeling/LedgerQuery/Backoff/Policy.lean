import LedgerQuery.Backoff.Limits

namespace LedgerQuery

/-- A policy in use: when it began, how many delays it has issued, and the interval of the next. -/
structure Backoff (α : Type) where
  limits : Limits α
  start : α
  retries : Nat
  interval : α

namespace Backoff

variable {α : Type} [Add α] [Sub α] [Mul α] [LT α] [LE α] [DecidableLT α] [DecidableLE α]

def least (a b : α) : α := if b < a then b else a

def begin (limits : Limits α) (start : α) : Backoff α :=
  ⟨limits, start, 0, least limits.initialInterval limits.maxInterval⟩

def delay (b : Backoff α) (draw : α) : α :=
  let delta := b.limits.randomizationFactor * b.interval
  let low := b.interval - delta
  let high := b.interval + delta
  low + (high - low) * draw

def issued (b : Backoff α) : Backoff α :=
  { b with
    retries := b.retries + 1
    interval := least (b.interval * b.limits.multiplier) b.limits.maxInterval }

def spent (b : Backoff α) : Bool := b.limits.maxRetries ≤ (b.retries : Number)

def elapsed (b : Backoff α) (now : α) : α := now - b.start

/-- Whether a wait of this length, begun now, would end past the time that is allowed. -/
def overruns (b : Backoff α) (now delay : α) : Bool :=
  match b.limits.maxElapsed with
  | none => false
  | some bound => bound < b.elapsed now + delay

/-- The next delay, unless the policy stops. A number is drawn even where the time then proves too
short; the clock is read only where there is a bound on the time. -/
def next {m : Type → Type} [Monad m] (draw now : m α) (b : Backoff α) : m (Option α × Backoff α) := do
  if b.spent then return (none, b)
  let d := b.delay (← draw)
  if b.limits.maxElapsed.isSome then
    if b.overruns (← now) d then return (none, b)
  return (some d, b.issued)

def delays {m : Type → Type} [Monad m] (draw now : m α) : Nat → Backoff α → m (List α × Backoff α)
  | 0, b => return ([], b)
  | fuel + 1, b => do
    match ← b.next draw now with
    | (none, b') => return ([], b')
    | (some d, b') =>
      let (ds, b'') ← delays draw now fuel b'
      return (d :: ds, b'')

def horizon : Nat := 18446744073709551616

/-- A number of delays that no policy with this bound exceeds; for one without bound, `horizon`. -/
def allowance (maxRetries : Number) : Nat :=
  match maxRetries.value with
  | .finite q => q.ceil.toNat
  | .negInf => 0
  | .posInf | .nan => horizon

def drain {m : Type → Type} [Monad m] (draw now : m α) (b : Backoff α) : m (List α × Backoff α) :=
  b.delays draw now (allowance b.limits.maxRetries + 1)

end Backoff

end LedgerQuery
