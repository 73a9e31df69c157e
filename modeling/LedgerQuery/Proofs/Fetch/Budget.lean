import LedgerQuery.Proofs.Fetch.Accounts

namespace LedgerQuery

variable {σ α : Type}

def Event.isRead : Event α → Bool
  | read _ => true
  | _ => false

def History.acts (h : History σ α) : History σ α := h.filter (!·.event.isRead)

@[simp]
theorem History.acts_append (h k : History σ α) : acts (h ++ k) = acts h ++ acts k := List.filter_append ..

/-- How long a call may go on under this bound on its time. -/
def Limits.reach : Option Number → Value
  | none => .posInf
  | some bound => bound.value

namespace Backoff

/-- The policy at the point where it is, under other bounds on time and count. -/
def rebound (b : Backoff Number) (time : Option Number) (count : Number) : Backoff Number :=
  { b with limits := { b.limits with maxElapsed := time, maxRetries := count } }

variable {b : Backoff Number} {time : Option Number} {count : Number}

theorem rebound_not_spent (more : b.limits.maxRetries ≤ count) (left : b.spent = false) :
    (b.rebound time count).spent = false := by
  apply decide_eq_false
  intro hspent
  exact of_decide_eq_false left (Number.le_trans more hspent)

theorem rebound_fits {now d : Number} (longer : (Limits.reach b.limits.maxElapsed).AtMost (Limits.reach time))
    (fits : b.overruns now d = false) : (b.rebound time count).overruns now d = false := by
  cases time with
  | none => rfl
  | some bound =>
      apply decide_eq_false
      intro (habove : bound.value.compare? (b.elapsed now + d).value = some .lt)
      cases hbound : b.limits.maxElapsed with
      | none =>
          rw [hbound, Limits.reach, Limits.reach, Value.posInf_atMost] at longer
          rw [longer] at habove
          exact Value.posInf_compare?_ne_lt _ habove
      | some least =>
          rw [hbound] at longer
          simp only [overruns, hbound] at fits
          exact of_decide_eq_false fits (Number.lt_of_le_of_lt longer habove)

theorem not_overruns_of_unbounded {now d : Number} (free : b.limits.maxElapsed = none) :
    b.overruns now d = false := by
  rw [overruns, free]

end Backoff

namespace Fetch

/-- Bounds on time and count that allow no less. If just one of the two policies looks at the clock, the look
leaves the world as it is. -/
structure Wider (w : World σ Number) (l : Limits Number) (time : Option Number) (count : Number) : Prop where
  longer : (Limits.reach l.maxElapsed).AtMost (Limits.reach time)
  more : l.maxRetries ≤ count
  still : l.maxElapsed.isSome ≠ time.isSome → ∀ s, (w.now s).2 = s

section

variable {w : World σ Number} {op : Operation} {request : op.Request} {context : String}
  {b b' : Backoff Number} {last last' : Option Failure} {s s' : σ} {h : History σ Number}
  {r : Except Failure op.Result} {time : Option Number} {count : Number}

theorem Consults.rebound {d : Number} (wider : Wider w b.limits time count)
    (c : Consults w b s h (some d) b' s') :
    ∃ k, Consults w (b.rebound time count) s k (some d) (b'.rebound time count) s' ∧ k.acts = h.acts := by
  cases c with
  | @unbounded x _ left draws free =>
      have hleft : (b.rebound time count).spent = false := Backoff.rebound_not_spent wider.more left
      cases time with
      | none => exact ⟨_, .unbounded hleft draws rfl, rfl⟩
      | some bound =>
          -- Only the wider policy looks at the clock, so the look must not change the world.
          have hstill := wider.still (by simp [free]) s'
          have hfits : (b.rebound (some bound) count).overruns (w.now s').1 (b.delay x) = false :=
            Backoff.rebound_fits wider.longer (Backoff.not_overruns_of_unbounded free)
          exact ⟨_, .fits hleft draws rfl (Prod.ext rfl hstill) hfits, rfl⟩
  | @fits x now drawn _ left draws bounded reads fits =>
      have hleft : (b.rebound time count).spent = false := Backoff.rebound_not_spent wider.more left
      have hfits : (b.rebound time count).overruns now (b.delay x) = false :=
        Backoff.rebound_fits wider.longer fits
      cases time with
      | none =>
          have hstill := wider.still (by simp [bounded]) drawn
          rw [reads] at hstill
          obtain rfl : s' = drawn := hstill
          exact ⟨_, .unbounded hleft draws rfl, rfl⟩
      | some bound => exact ⟨_, .fits hleft draws rfl reads hfits, rfl⟩

theorem Passage.rebound {f : Failure} (wider : Wider w b.limits time count)
    (p : Passage w op request context b s f h b' s') :
    ∃ k, Passage w op request context (b.rebound time count) s f k (b'.rebound time count) s' ∧
      k.acts = h.acts := by
  cases p with
  | intro looks calls fails transient consults logs waits =>
      obtain ⟨k, hconsults, hacts⟩ := consults.rebound wider
      refine ⟨_, .intro looks calls fails transient hconsults logs waits, ?_⟩
      simp only [History.acts_append, hacts]

theorem Passages.rebound {n : Nat} (wider : Wider w b.limits time count)
    (ps : Passages w op request context n b last s h b' last' s') :
    ∃ k, Passages w op request context n (b.rebound time count) last s k (b'.rebound time count) last' s' ∧
      k.acts = h.acts := by
  induction ps with
  | none => exact ⟨[], .none _ _ _, rfl⟩
  | more p _ ih =>
      obtain ⟨k, hp, hk⟩ := p.rebound wider
      obtain ⟨l, hps, hl⟩ := ih (by rw [p.policy.1]; exact wider)
      exact ⟨k ++ l, .more hp hps, by rw [History.acts_append, History.acts_append, hk, hl]⟩

theorem Ending.rebound {way : Way} (wider : Wider w b.limits time count)
    (e : Ending w op request context b last s way h r s') (kept : way ≠ .exhausted) :
    ∃ k, Ending w op request context (b.rebound time count) last s way k r s' ∧ k.acts = h.acts := by
  cases e with
  | returned looks calls succeeds => exact ⟨_, .returned looks calls succeeds, rfl⟩
  | raised looks calls fails permanent => exact ⟨_, .raised looks calls fails permanent, rfl⟩
  | exhausted => exact absurd rfl kept
  | calledOff looks logs => exact ⟨_, .calledOff looks logs, rfl⟩
  | interrupted looks calls fails transient consults logs waits logs' =>
      obtain ⟨k, hconsults, hacts⟩ := consults.rebound wider
      refine ⟨_, .interrupted looks calls fails transient hconsults logs waits logs', ?_⟩
      simp only [History.acts_append, hacts]
  | brokenOff looks calls fails transient consults logs waits =>
      obtain ⟨k, hconsults, hacts⟩ := consults.rebound wider
      refine ⟨_, .brokenOff looks calls fails transient hconsults logs waits, ?_⟩
      simp only [History.acts_append, hacts]

theorem Course.rebound (wider : Wider w b.limits time count)
    (c : Course w op request context b last s h r s') (kept : ¬Aborts op .exhausted h r) :
    ∃ k, Course w op request context (b.rebound time count) last s k r s' ∧ k.acts = h.acts := by
  obtain ⟨n, k, b', last', t, way, l, rfl, ps, e⟩ := c
  rw [ps.aborts_iff e, Way.reason_eq_exhausted] at kept
  obtain ⟨k', hps, hk⟩ := ps.rebound wider
  obtain ⟨l', he, hl⟩ := e.rebound (ps.limits_eq ▸ wider) kept
  exact ⟨k' ++ l', ⟨n, k', _, last', t, way, l', rfl, hps, he⟩,
    by rw [History.acts_append, History.acts_append, hk, hl]⟩

end

/-- A call that is not given up does the same, step for step, and ends in the same way, under bounds that allow
no less; the runs may differ only in the looks at the clock. -/
theorem retried_of_wider_bounds (w : World σ Number) (settings : RetrySettings) (op : Operation)
    (request : op.Request) (bounds bounds' : Bounds) (accepted : (bounds.limits settings).error? = none)
    (accepted' : (bounds'.limits settings).error? = none)
    (wider : Wider w (bounds.limits settings) (bounds'.limits settings).maxElapsed
      (bounds'.limits settings).maxRetries)
    {s s' : σ} {r : Except Failure op.Result} {history : History σ Number}
    (run : retried w.observed settings op request bounds (s, []) = some (r, (s', history)))
    (kept : ¬Aborts op .exhausted history r) :
    ∃ history', retried w.observed settings op request bounds' (s, []) = some (r, (s', history')) ∧
      history'.acts = history.acts := by
  obtain ⟨start, t, h, hstart, rfl, c⟩ := (retried_observed_iff accepted).mp run
  obtain ⟨k, hc, hacts⟩ := c.rebound wider kept
  have run' := (retried_observed_iff accepted').mpr ⟨start, t, k, hstart, (List.nil_append _).symm, hc⟩
  exact ⟨_, run', hacts⟩

theorem recovering_of_wider_bounds :
    Wider recovering (Bounds.limits ⟨some (.int 2), some (.int 1)⟩ patient) none (.int 9) ∧
      ∃ history history',
        retried recovering.observed patient .networkList ⟨none⟩ ⟨some (.int 2), some (.int 1)⟩ (0, []) =
          some (.ok [], (2, history)) ∧
        retried recovering.observed patient .networkList ⟨none⟩ ⟨none, some (.int 9)⟩ (0, []) =
          some (.ok [], (2, history')) ∧
        history'.acts = history.acts := by
  have accepted : (Bounds.limits ⟨some (.int 2), some (.int 1)⟩ patient).error? = none :=
    Option.isNone_iff_eq_none.mp (by decide +kernel)
  have accepted' : (Bounds.limits ⟨none, some (.int 9)⟩ patient).error? = none :=
    Option.isNone_iff_eq_none.mp (by decide +kernel)
  have wider : Wider recovering (Bounds.limits ⟨some (.int 2), some (.int 1)⟩ patient) none (.int 9) :=
    ⟨Value.atMost_posInf.mpr nofun, Number.int_le_int.mpr (by decide), fun _ _ => rfl⟩
  let b : Backoff Number := .begin (Bounds.limits ⟨some (.int 2), some (.int 1)⟩ patient) (.int 0)
  let f : Failure := .transport ⟨some 503, .unstated⟩
  have fails : Passage recovering .networkList ⟨none⟩ "node" b 0 f _ b.issued 1 :=
    .intro rfl rfl (.raised _) rfl (.fits (by decide +kernel) rfl rfl rfl (by decide +kernel)) rfl
      (recovering_waits (by decide +kernel) 1)
  have returns : Ending recovering .networkList ⟨none⟩ "node" b.issued (some f) 1 .returned _ (.ok []) 2 :=
    .returned rfl rfl (.intro rfl rfl)
  have course : Course recovering .networkList ⟨none⟩ "node" b none 0 _ (.ok []) 2 :=
    .of_passage fails (.of_ending returns)
  have run := (retried_observed_iff accepted).mpr ⟨_, _, _, rfl, (List.nil_append _).symm, course⟩
  obtain ⟨history', run', hacts⟩ := retried_of_wider_bounds recovering patient .networkList ⟨none⟩ _ _ accepted
    accepted' wider run (by rintro ⟨_, _, _, hr, -⟩; cases hr)
  exact ⟨wider, _, history', run, run', hacts⟩

end Fetch

end LedgerQuery
