import LedgerQuery.Backoff.Limits

namespace LedgerQuery

variable {α : Type} [LT α] [LE α] [DecidableLT α] [DecidableLE α] [NatCast α]

structure Limits.Sensible (l : Limits α) : Prop where
  maxElapsed : ∀ x ∈ l.maxElapsed, ¬x < Nat.cast 0
  maxRetries : ¬l.maxRetries < .int 0
  initialInterval : ¬l.initialInterval < Nat.cast 0
  maxInterval : ¬l.maxInterval < Nat.cast 0
  multiplier : ¬l.multiplier < Nat.cast 1
  randomizationFactor : Nat.cast 0 ≤ l.randomizationFactor ∧ l.randomizationFactor ≤ Nat.cast 1

theorem Limits.error?_eq_none {l : Limits α} : l.error? = none ↔ l.Sensible := by
  constructor
  · intro h
    simp only [error?] at h
    split at h
    · cases h
    next helapsed =>
      split at h
      · cases h
      next hretries =>
        split at h
        · cases h
        next hintervals =>
          split at h
          · cases h
          next hmultiplier =>
            split at h
            · cases h
            next hfactor =>
              rw [not_or] at hintervals
              refine ⟨?_, hretries, hintervals.1, hintervals.2, hmultiplier, Decidable.not_not.mp hfactor⟩
              simpa [Option.filter_eq_none_iff] using helapsed
  · intro h
    have helapsed : l.maxElapsed.filter (· < Nat.cast 0) = none := by
      simpa [Option.filter_eq_none_iff] using h.maxElapsed
    simp [error?, helapsed, h.maxRetries, h.initialInterval, h.maxInterval, h.multiplier,
      h.randomizationFactor]

end LedgerQuery
