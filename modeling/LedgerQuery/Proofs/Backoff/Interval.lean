import LedgerQuery.Proofs.Backoff.Exact
import Mathlib.Algebra.Order.Field.Rat
import Mathlib.Data.List.ReduceOption
import Mathlib.Tactic.Ring

namespace LedgerQuery

/-- The interval after so many delays: it grows by the multiplier with each, up to the cap. -/
def Limits.intervalAfter (l : Limits Rat) (n : Nat) : Rat := min (l.initialInterval * l.multiplier ^ n) l.maxInterval

namespace Backoff

section

variable {σ α : Type} [Add α] [Sub α] [Mul α] [LT α] [DecidableLT α]
  {draw now : StateM σ α} {b b' : Backoff α} {s s' : σ} {answer : Option α}

inductive Asked (draw now : StateM σ α) (b : Backoff α) : List (Option α) → Backoff α → Prop
  | nil : Asked draw now b [] b
  | next {answers : List (Option α)} {b' b'' : Backoff α} {answer : Option α} {s s' : σ}
      (before : Asked draw now b answers b') (question : b'.next draw now s = ((answer, b''), s')) :
      Asked draw now b (answers ++ [answer]) b''

section

variable {x time : α} {drawn read : σ}

theorem next_of_spent (spent : b.spent = true) : b.next draw now s = ((none, b), s) := by
  rw [next, if_pos spent]
  rfl

theorem next_of_unbounded (left : b.spent = false) (draws : draw s = (x, drawn))
    (unbounded : b.limits.maxElapsed = none) : b.next draw now s = ((some (b.delay x), b.issued), drawn) := by
  rw [next, if_neg (Bool.eq_false_iff.mp left), unbounded]
  change ((some (b.delay (draw s).1), b.issued), (draw s).2) = _
  rw [draws]

theorem next_of_bounded (left : b.spent = false) (draws : draw s = (x, drawn))
    (bounded : b.limits.maxElapsed.isSome = true) (reads : now drawn = (time, read)) :
    b.next draw now s = (if b.overruns time (b.delay x) then (none, b) else (some (b.delay x), b.issued), read) := by
  rw [next, if_neg (Bool.eq_false_iff.mp left)]
  simp only [bounded, if_true]
  change (if b.overruns (now (draw s).2).1 (b.delay (draw s).1) = true then pure (none, b)
    else pure (some (b.delay (draw s).1), b.issued) : StateM σ (Option α × Backoff α)) (now (draw s).2).2 = _
  rw [draws, reads]
  split <;> rfl

theorem next_of_late (left : b.spent = false) (draws : draw s = (x, drawn))
    (bounded : b.limits.maxElapsed.isSome = true) (reads : now drawn = (time, read))
    (late : b.overruns time (b.delay x) = true) : b.next draw now s = ((none, b), read) := by
  rw [next_of_bounded left draws bounded reads, if_pos late]

theorem next_of_fits (left : b.spent = false) (draws : draw s = (x, drawn))
    (bounded : b.limits.maxElapsed.isSome = true) (reads : now drawn = (time, read))
    (fits : b.overruns time (b.delay x) = false) : b.next draw now s = ((some (b.delay x), b.issued), read) := by
  rw [next_of_bounded left draws bounded reads, if_neg (Bool.eq_false_iff.mp fits)]

end

theorem next_cases (h : b.next draw now s = ((answer, b'), s')) :
    (answer = none ∧ b' = b) ∨ (answer = some (b.delay (draw s).1) ∧ b' = b.issued) := by
  cases spent : b.spent with
  | true =>
      cases h.symm.trans (next_of_spent spent)
      exact .inl ⟨rfl, rfl⟩
  | false =>
      cases bound : b.limits.maxElapsed with
      | none =>
          cases h.symm.trans (next_of_unbounded spent rfl bound)
          exact .inr ⟨rfl, rfl⟩
      | some E =>
          have bounded : b.limits.maxElapsed.isSome = true := by rw [bound]; rfl
          cases late : b.overruns (now (draw s).2).1 (b.delay (draw s).1) with
          | true =>
              cases h.symm.trans (next_of_late spent rfl bounded rfl late)
              exact .inl ⟨rfl, rfl⟩
          | false =>
              cases h.symm.trans (next_of_fits spent rfl bounded rfl late)
              exact .inr ⟨rfl, rfl⟩

end

theorem least_eq_min (x y : Rat) : least x y = min x y := by
  rw [least, min_def]
  by_cases h : x ≤ y
  · rw [if_neg (not_lt.mpr h), if_pos h]
  · rw [if_pos (not_le.mp h), if_neg h]

end Backoff

variable {q : Limits Rat}

theorem Limits.intervalAfter_nonneg (sensible : q.Sensible) (n : Nat) : 0 ≤ q.intervalAfter n := by
  have hinitial : 0 ≤ q.initialInterval := by simpa using sensible.initialInterval
  have hmultiplier : 1 ≤ q.multiplier := by simpa using sensible.multiplier
  have hmax : 0 ≤ q.maxInterval := by simpa using sensible.maxInterval
  exact le_min (mul_nonneg hinitial (pow_nonneg (zero_le_one.trans hmultiplier) n)) hmax

theorem Limits.intervalAfter_succ (sensible : q.Sensible) (n : Nat) :
    q.intervalAfter (n + 1) = min (q.intervalAfter n * q.multiplier) q.maxInterval := by
  have hinitial : 0 ≤ q.initialInterval := by simpa using sensible.initialInterval
  have hmultiplier : 1 ≤ q.multiplier := by simpa using sensible.multiplier
  have hmax : 0 ≤ q.maxInterval := by simpa using sensible.maxInterval
  have hgrown : 0 ≤ q.initialInterval * q.multiplier ^ n :=
    mul_nonneg hinitial (pow_nonneg (zero_le_one.trans hmultiplier) n)
  have hpower : q.initialInterval * q.multiplier ^ (n + 1) = q.initialInterval * q.multiplier ^ n * q.multiplier := by
    rw [pow_succ, mul_assoc]
  rw [intervalAfter, intervalAfter, hpower]
  by_cases hcap : q.initialInterval * q.multiplier ^ n ≤ q.maxInterval
  · rw [min_eq_left hcap]
  · have habove := (not_le.mp hcap).le
    rw [min_eq_right habove, min_eq_right (habove.trans (le_mul_of_one_le_right hgrown hmultiplier)),
      min_eq_right (le_mul_of_one_le_right hmax hmultiplier)]

theorem Limits.intervalAfter_mono (sensible : q.Sensible) : Monotone q.intervalAfter := by
  have hmultiplier : 1 ≤ q.multiplier := by simpa using sensible.multiplier
  refine monotone_nat_of_le_succ fun n => ?_
  rw [intervalAfter_succ sensible]
  exact le_min (le_mul_of_one_le_right (intervalAfter_nonneg sensible n) hmultiplier) (min_le_right _ _)

/-- A delay from the band around an interval. -/
structure Limits.InBand (q : Limits Rat) (interval delay : Rat) : Prop where
  low : (1 - q.randomizationFactor) * interval ≤ delay
  high : delay ≤ (1 + q.randomizationFactor) * interval
  nonneg : 0 ≤ delay
  capped : delay ≤ 2 * q.maxInterval
  fixed : q.randomizationFactor = 0 → delay = interval

namespace Backoff

variable {b b' : Backoff Rat}

structure After (q : Limits Rat) (n : Nat) (b : Backoff Rat) : Prop where
  limits : b.limits = q
  interval : b.interval = q.intervalAfter n

theorem begin_after (q : Limits Rat) (start : Rat) : (begin q start).After q 0 where
  limits := rfl
  interval := by rw [Limits.intervalAfter, pow_zero, mul_one, ← least_eq_min]; rfl

theorem After.issued (sensible : q.Sensible) {n : Nat} (h : b.After q n) : b.issued.After q (n + 1) where
  limits := h.limits
  interval := by
    rw [Limits.intervalAfter_succ sensible, ← h.interval, ← h.limits, ← least_eq_min]
    rfl

theorem After.inBand (sensible : q.Sensible) {n : Nat} (h : b.After q n) {x : Rat} (hx : 0 ≤ x ∧ x ≤ 1) :
    q.InBand (q.intervalAfter n) (b.delay x) := by
  obtain ⟨rfl, hinterval⟩ := h
  have hfactor : 0 ≤ b.limits.randomizationFactor ∧ b.limits.randomizationFactor ≤ 1 := by
    simpa using sensible.randomizationFactor
  have hnonneg := Limits.intervalAfter_nonneg sensible n
  have hcap : b.limits.intervalAfter n ≤ b.limits.maxInterval := min_le_right _ _
  rw [← hinterval] at hnonneg hcap ⊢
  -- The draw counts from the lower end of the band in parts of its width.
  have hdelay : b.delay x =
      (1 - b.limits.randomizationFactor) * b.interval + 2 * (b.limits.randomizationFactor * b.interval) * x := by
    rw [delay]
    ring
  have hdelta : 0 ≤ b.limits.randomizationFactor * b.interval := mul_nonneg hfactor.1 hnonneg
  have hwithin : b.limits.randomizationFactor * b.interval ≤ b.interval :=
    mul_le_of_le_one_left hnonneg hfactor.2
  have hlow : 0 ≤ 2 * (b.limits.randomizationFactor * b.interval) * x :=
    mul_nonneg (mul_nonneg zero_le_two hdelta) hx.1
  have hhigh : 2 * (b.limits.randomizationFactor * b.interval) * x ≤ 2 * (b.limits.randomizationFactor * b.interval) :=
    mul_le_of_le_one_right (mul_nonneg zero_le_two hdelta) hx.2
  refine ⟨?_, ?_, ?_, ?_, fun hzero => ?_⟩
  · linarith
  · linarith
  · linarith
  · linarith
  · rw [hdelay, hzero]
    ring

section

variable {σ : Type} {draw now : StateM σ Rat} {answers : List (Option Rat)}

structure Banded (q : Limits Rat) (delays : List Rat) (b : Backoff Rat) : Prop where
  after : b.After q delays.length
  delay : ∀ n d, delays[n]? = some d → q.InBand (q.intervalAfter n) d

theorem Banded.issued (sensible : q.Sensible) {delays : List Rat} (h : Banded q delays b) {x : Rat}
    (hx : 0 ≤ x ∧ x ≤ 1) : Banded q (delays ++ [b.delay x]) b.issued where
  after := by
    rw [List.length_append]
    exact h.after.issued sensible
  delay n d hd := by
    obtain hn | hn := lt_or_ge n delays.length
    · rw [List.getElem?_append_left hn] at hd
      exact h.delay n d hd
    · rw [List.getElem?_append_right hn, List.getElem?_singleton] at hd
      split at hd
      · obtain rfl : n = delays.length := by omega
        cases hd
        exact h.after.inBand sensible hx
      · cases hd

theorem Asked.banded (sensible : q.Sensible) (draws : ∀ s, 0 ≤ (draw s).1 ∧ (draw s).1 ≤ 1) {start : Rat}
    (asked : Asked draw now (begin q start) answers b) : Banded q answers.reduceOption b := by
  induction asked with
  | nil => exact ⟨begin_after q start, by simp⟩
  | @next answers b b' answer s s' before question ih =>
      obtain ⟨rfl, rfl⟩ | ⟨rfl, rfl⟩ := next_cases question
      · rwa [List.reduceOption_append, List.reduceOption_singleton, Option.toList_none, List.append_nil]
      · rw [List.reduceOption_append, List.reduceOption_singleton]
        exact ih.issued sensible (draws s)

/-- After any questions to a policy that is sound, its interval is what the number of delays issued says, and each
of the delays lies in the band around its own; the intervals never shrink. -/
theorem delays_in_band {l : Limits Number} (accepted : l.error? = none) (exact : l.Denotes q) (start : Rat)
    (draws : ∀ s, 0 ≤ (draw s).1 ∧ (draw s).1 ≤ 1) (asked : Asked draw now (begin q start) answers b) :
    b.interval = q.intervalAfter answers.reduceOption.length ∧
      (∀ n d, answers.reduceOption[n]? = some d → q.InBand (q.intervalAfter n) d) ∧ Monotone q.intervalAfter := by
  have sensible := exact.sensible (Limits.error?_eq_none.mp accepted)
  have hbanded := asked.banded sensible draws
  exact ⟨hbanded.after.interval, hbanded.delay, Limits.intervalAfter_mono sensible⟩

def highest : StateM Rat Rat := pure 1

def shown : StateM Rat Rat := get

/-- An interval that doubles from one up to three, with draws at the upper end of the band. The question in between
comes too late for a delay. -/
theorem doubling_in_band : ∃ (l : Limits Number) (q : Limits Rat) (b : Backoff Rat),
    l.error? = none ∧ l.Denotes q ∧
      Asked highest shown (begin q 0) [some (3 / 2), none, some 3] b ∧
        b.interval = 3 ∧ q.InBand 1 (3 / 2) ∧ q.InBand 2 3 := by
  let l : Limits Number := ⟨some (.int 10), .int 3, .int 1, .int 2, .float 0.5, .int 3⟩
  let q : Limits Rat := ⟨some 10, .int 3, 1, 2, 1 / 2, 3⟩
  have accepted : l.error? = none := Option.isNone_iff_eq_none.mp (by decide +kernel)
  have exact : l.Denotes q := ⟨rfl, rfl, rfl, rfl, by decide +kernel, rfl⟩
  have hfirst : (begin q 0).delay 1 = 3 / 2 := by decide +kernel
  have hsecond : (begin q 0).issued.delay 1 = 3 := by decide +kernel
  have asked : Asked highest shown (begin q 0) [some ((begin q 0).delay 1), none, some ((begin q 0).issued.delay 1)]
      (begin q 0).issued.issued := by
    have first : (begin q 0).next highest shown 0 = _ :=
      next_of_fits (by decide +kernel) rfl rfl rfl (by decide +kernel)
    have late : (begin q 0).issued.next highest shown 8 = _ :=
      next_of_late (by decide +kernel) rfl rfl rfl (by decide +kernel)
    have second : (begin q 0).issued.next highest shown 2 = _ :=
      next_of_fits (by decide +kernel) rfl rfl rfl (by decide +kernel)
    exact ((Asked.nil.next first).next late).next second
  rw [hfirst, hsecond] at asked
  obtain ⟨interval, band, -⟩ := delays_in_band accepted exact 0 (fun _ => ⟨zero_le_one, le_refl _⟩) asked
  refine ⟨l, q, _, accepted, exact, asked, interval.trans (by decide +kernel), ?_, ?_⟩
  · have hone : q.intervalAfter 0 = 1 := by decide +kernel
    exact hone ▸ band 0 (3 / 2) rfl
  · have htwo : q.intervalAfter 1 = 2 := by decide +kernel
    exact htwo ▸ band 1 3 rfl

end

end Backoff

end LedgerQuery
