import LedgerQuery.Fetch.Call
import LedgerQuery.Proofs.Backoff.Limits
import LedgerQuery.Proofs.Number.Double
import LedgerQuery.Proofs.Shape.Reading

namespace LedgerQuery

open Fetch

structure RetrySettings.Bounded (s : RetrySettings) : Prop where
  maxElapsed : ∀ x ∈ s.maxElapsed, 0 ≤ x
  maxRetries : 0 ≤ s.maxRetries
  initialInterval : 0 ≤ s.initialInterval
  multiplier : 1 ≤ s.multiplier
  randomizationFactor : 0 ≤ s.randomizationFactor ∧ s.randomizationFactor ≤ 1
  maxInterval : 0 ≤ s.maxInterval

theorem RetrySettings.default_bounded : RetrySettings.default.Bounded where
  maxElapsed := by decide +kernel
  maxRetries := by decide
  initialInterval := by decide +kernel
  multiplier := by decide +kernel
  randomizationFactor := by decide +kernel
  maxInterval := by decide +kernel

variable {σ : Type} [Source σ]

theorem RetrySettings.bounded_of_read {x : σ} {s : RetrySettings} (h : shape.read x = .ok s) : s.Bounded := by
  obtain ⟨entries, h₀⟩ := Shape.record_read h
  obtain ⟨_, maxInterval, h₁, hmaxInterval, rfl⟩ := Fields.seq_read.mp h₀
  obtain ⟨_, randomizationFactor, h₂, hrandomizationFactor, rfl⟩ := Fields.seq_read.mp h₁
  obtain ⟨_, multiplier, h₃, hmultiplier, rfl⟩ := Fields.seq_read.mp h₂
  obtain ⟨_, initialInterval, h₄, hinitialInterval, rfl⟩ := Fields.seq_read.mp h₃
  obtain ⟨_, maxRetries, h₅, hmaxRetries, rfl⟩ := Fields.seq_read.mp h₄
  obtain ⟨maxElapsed, hmaxElapsed, rfl⟩ := Fields.map_read.mp h₅
  exact {
    maxElapsed := Fields.withDefault_read (P := fun o => ∀ x ∈ o, 0 ≤ x) default_bounded.maxElapsed
      (fun _ _ h x hx => (Shape.atLeast_read.mp (Shape.optional_read h hx)).2) hmaxElapsed
    maxRetries := Fields.withDefault_read default_bounded.maxRetries
      (fun _ _ h => (Shape.atLeast_read.mp h).2) hmaxRetries
    initialInterval := Fields.withDefault_read default_bounded.initialInterval
      (fun _ _ h => (Shape.atLeast_read.mp h).2) hinitialInterval
    multiplier := Fields.withDefault_read default_bounded.multiplier
      (fun _ _ h => (Shape.atLeast_read.mp h).2) hmultiplier
    randomizationFactor := Fields.withDefault_read (P := fun x => 0 ≤ x ∧ x ≤ 1)
      default_bounded.randomizationFactor
      (fun _ _ h => ⟨(Shape.atLeast_read.mp h).2, (Shape.atMost_read.mp (Shape.atLeast_read.mp h).1).2⟩)
      hrandomizationFactor
    maxInterval := Fields.withDefault_read default_bounded.maxInterval
      (fun _ _ h => (Shape.atLeast_read.mp h).2) hmaxInterval }

theorem Settings.bounded_of_read {x : σ} {s : Settings} (h : shape.read x = .ok s) : s.retry.Bounded := by
  obtain ⟨entries, h₀⟩ := Shape.record_read h
  obtain ⟨_, retry, h₁, hretry, rfl⟩ := Fields.seq_read.mp h₀
  obtain ⟨_, hosts, h₂, -, rfl⟩ := Fields.seq_read.mp h₁
  obtain ⟨version, -, rfl⟩ := Fields.map_read.mp h₂
  exact Fields.withDefault_read RetrySettings.default_bounded (fun _ _ => RetrySettings.bounded_of_read) hretry

theorem RetrySettings.Bounded.accepted {s : RetrySettings} (hs : s.Bounded) {b : Bounds}
    (time : ∀ x ∈ (b.limits s).maxElapsed, ¬x < Number.int 0) (count : ¬(b.limits s).maxRetries < .int 0) :
    (b.limits s).error? = none := by
  have hnonneg (x : Float) (hx : 0 ≤ x) : ¬Number.float x < .int 0 :=
    Number.not_lt_of_le (Number.zero_le_float.mpr hx)
  exact Limits.error?_eq_none.mpr {
    maxElapsed := time
    maxRetries := count
    initialInterval := hnonneg _ hs.initialInterval
    maxInterval := hnonneg _ hs.maxInterval
    multiplier := Number.not_lt_of_le (Number.one_le_float.mpr hs.multiplier)
    randomizationFactor :=
      ⟨Number.zero_le_float.mpr hs.randomizationFactor.1, Number.float_le_one.mpr hs.randomizationFactor.2⟩ }

theorem RetrySettings.Bounded.limits_accepted {s : RetrySettings} (hs : s.Bounded) :
    (Bounds.limits ⟨none, none⟩ s).error? = none := by
  refine hs.accepted ?_ (Number.not_lt_of_le (Number.int_le_int.mpr hs.maxRetries))
  intro x hx
  obtain ⟨y, hy, rfl⟩ := Option.map_eq_some_iff.mp hx
  exact Number.not_lt_of_le (Number.zero_le_float.mpr (hs.maxElapsed y hy))

end LedgerQuery
