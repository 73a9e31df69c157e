import LedgerQuery.Number.Written

namespace LedgerQuery

/-- The limits within which a call is retried. Their times may be doubles, and exact quantities just as well. -/
structure Limits (α : Type) where
  /-- The time after which no further wait is begun; without it only the count of waits is bounded. -/
  maxElapsed : Option α
  maxRetries : Number
  initialInterval : α
  multiplier : α
  randomizationFactor : α
  maxInterval : α

inductive LimitsError (α : Type)
  | negativeElapsed (bound : α)
  | negativeRetries (bound : Number)
  | negativeInterval
  | smallMultiplier (multiplier : α)
  | factorOutOfRange (factor : α)

def LimitsError.message : LimitsError Number → String
  | negativeElapsed x => "max_elapsed_time must be non-negative, got " ++ x.text
  | negativeRetries n => "max_retries must be non-negative, got " ++ n.text
  | negativeInterval => "intervals must be non-negative"
  | smallMultiplier x => "multiplier must be >= 1, got " ++ x.text
  | factorOutOfRange x => "randomization_factor must be in [0, 1], got " ++ x.text

variable {α : Type} [LT α] [LE α] [DecidableLT α] [DecidableLE α] [NatCast α]

def Limits.error? (l : Limits α) : Option (LimitsError α) :=
  let zero : α := Nat.cast 0
  let one : α := Nat.cast 1
  match l.maxElapsed.filter (· < zero) with
  | some bound => some (.negativeElapsed bound)
  | none =>
    if l.maxRetries < Number.int 0 then some (.negativeRetries l.maxRetries)
    else if l.initialInterval < zero ∨ l.maxInterval < zero then some .negativeInterval
    else if l.multiplier < one then some (.smallMultiplier l.multiplier)
    else if ¬(zero ≤ l.randomizationFactor ∧ l.randomizationFactor ≤ one) then
      some (.factorOutOfRange l.randomizationFactor)
    else none

end LedgerQuery
