import LedgerQuery.Proofs.Fetch.Course
import LedgerQuery.Proofs.Number.Order

namespace LedgerQuery.Fetch

section

variable {σ α : Type} [Add α] [Sub α] [Mul α] [LT α] [DecidableLT α]

theorem Consults.not_spent {w : World σ α} {b b' : Backoff α} {s s' : σ} {h : History σ α} {d : α}
    (c : Consults w b s h (some d) b' s') : ¬b.limits.maxRetries ≤ (b.retries : Number) := by
  cases c with
  | unbounded left => exact of_decide_eq_false left
  | fits left => exact of_decide_eq_false left

theorem Passage.policy {w : World σ α} {op : Operation} {request : op.Request} {context : String}
    {b b' : Backoff α} {s s' : σ} {f : Failure} {h : History σ α}
    (p : Passage w op request context b s f h b' s') :
    b' = b.issued ∧ ¬b.limits.maxRetries ≤ (b.retries : Number) := by
  cases p with
  | intro _ _ _ _ consults =>
      refine ⟨?_, consults.not_spent⟩
      cases consults <;> rfl

theorem attempts_terminates (w : World σ α) (op : Operation) (request : op.Request) (context : String)
    (n : Nat) (b : Backoff α) (bounded : b.limits.maxRetries ≤ ((b.retries + n : Nat) : Number))
    (last : Option Failure) (s : σ) :
    ∃ r s', w.attempts op request context b last s = some (r, s') := by
  induction n generalizing b last s with
  | zero =>
      obtain ⟨f, h, b', s', p⟩ | ⟨way, h, r, s', e⟩ := passage_or_ending w op request context b last s
      · exact absurd bounded p.policy.2
      · exact ⟨r, s', (Course.of_ending e).attempts_eq⟩
  | succ n ih =>
      obtain ⟨f, h, b', s', p⟩ | ⟨way, h, r, s', e⟩ := passage_or_ending w op request context b last s
      · rw [p.attempts_eq]
        obtain ⟨rfl, -⟩ := p.policy
        apply ih
        have hretries : b.issued.retries + n = b.retries + (n + 1) := by
          simp only [Backoff.issued]
          omega
        rw [hretries]
        exact bounded
      · exact ⟨r, s', (Course.of_ending e).attempts_eq⟩

end

variable {σ : Type}

theorem retried_terminates (w : World σ Number) (settings : RetrySettings) (op : Operation)
    (request : op.Request) (bounds : Bounds) {n : Nat}
    (bounded : (bounds.limits settings).maxRetries ≤ (n : Number)) (s : σ) :
    ∃ r s', retried w settings op request bounds s = some (r, s') := by
  cases herror : (bounds.limits settings).error? with
  | some e => exact ⟨.error (.limits e), s, by simp [retried, herror]; rfl⟩
  | none =>
      rw [retried_apply w op request herror]
      apply attempts_terminates w op request _ n
      simpa [Backoff.begin] using bounded

end LedgerQuery.Fetch
