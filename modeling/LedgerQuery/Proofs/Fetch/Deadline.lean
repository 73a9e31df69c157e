import LedgerQuery.Proofs.Backoff.Exact
import LedgerQuery.Proofs.Fetch.Accounts

namespace LedgerQuery

variable {σ : Type}

/-- A world with a clock that moves only while the call attempts or waits: in a wait that runs its course by the
delay, and in one that is cut short or fails by no more than that. -/
structure World.Timed (w : World σ Rat) (clock : σ → Rat) : Prop where
  tells : ∀ {s}, (w.now s).1 = clock s
  still : ∀ m, w.Allows m → m.event.isCall = false → m.event.isWait = false → clock m.after = clock m.before
  takes : ∀ {op request s outcome s'}, w.call op request s = (outcome, s') → clock s ≤ clock s'
  elapsed : ∀ {d s s'}, 0 ≤ d → w.wait d s = (.ok false, s') → clock s' = clock s + d
  limited : ∀ {d s answer s'}, 0 ≤ d → w.wait d s = (answer, s') → clock s ≤ clock s' ∧ clock s' ≤ clock s + d
  draws : ∀ {s x s'}, w.draw s = (x, s') → 0 ≤ x ∧ x ≤ 1

namespace World.Timed

variable {w : World σ Rat} {clock : σ → Rat} (timed : w.Timed clock) {s s' : σ}
include timed

theorem of_looks {c : Bool} (looks : w.cancelled s = (c, s')) : clock s' = clock s :=
  timed.still ⟨s, .asked c, s'⟩ looks rfl rfl

theorem of_draws {x : Rat} (draws : w.draw s = (x, s')) : clock s' = clock s :=
  timed.still ⟨s, .drew x, s'⟩ draws rfl rfl

theorem of_reads {now : Rat} (reads : w.now s = (now, s')) : now = clock s ∧ clock s' = clock s := by
  refine ⟨?_, timed.still ⟨s, .read now, s'⟩ reads rfl rfl⟩
  rw [← timed.tells, reads]

theorem of_logs {entry : LogEntry Rat} (logs : w.log entry s = ((), s')) : clock s' = clock s :=
  timed.still ⟨s, .logged entry, s'⟩ logs rfl rfl

end World.Timed

namespace Fetch

variable {w : World σ Rat} {clock : σ → Rat} {op : Operation} {request : op.Request} {context : String}
  {b b' : Backoff Rat} {last last' : Option Failure} {s s' t : σ} {h k : History σ Rat} {E deadline : Rat}
  {r : Except Failure op.Result} {way : Way}

theorem Consults.clock_eq (timed : w.Timed clock) {answer : Option Rat} (c : Consults w b s h answer b' s') :
    clock s' = clock s := by
  cases c with
  | spent => rfl
  | unbounded _ draws => exact timed.of_draws draws
  | fits _ draws _ reads | overruns _ draws _ reads => exact (timed.of_reads reads).2.trans (timed.of_draws draws)

theorem Consults.in_time (timed : w.Timed clock) (regular : b.Regular) (bound : b.limits.maxElapsed = some E)
    {d : Rat} (c : Consults w b s h (some d) b' s') : 0 ≤ d ∧ clock s' + d ≤ b.start + E := by
  cases c with
  | unbounded _ _ free =>
      rw [bound] at free
      cases free
  | @fits x now drawn _ left draws _ reads fits =>
      obtain ⟨hnow, hread⟩ := timed.of_reads reads
      have hfits : ¬E < now - b.start + b.delay x := by
        rw [Backoff.overruns, bound] at fits
        exact of_decide_eq_false fits
      refine ⟨regular.delay_nonneg (timed.draws draws).1, ?_⟩
      rw [hread, ← hnow]
      linarith

/-- What has happened in a part of a call that begins in this state keeps to the deadline. -/
structure InTime (clock : σ → Rat) (deadline : Rat) (s : σ) (h : History σ Rat) : Prop where
  first : ∀ m ∈ h.calls.head?, clock m.before = clock s
  later : ∀ m ∈ h.calls.tail, clock m.before ≤ deadline
  waits : ∀ m ∈ h.waits, clock m.after ≤ deadline
  delays : h.delays ≠ [] → clock s + h.delays.sum ≤ deadline

theorem InTime.of_short (first : ∀ m ∈ h.calls.head?, clock m.before = clock s) (short : h.calls.tail = [])
    (waits : h.waits = []) : InTime clock deadline s h where
  first := first
  later := by
    rw [short]
    exact List.forall_mem_nil _
  waits := by
    rw [waits]
    exact List.forall_mem_nil _
  delays hdelays := by
    rw [← List.length_pos_iff, History.length_delays, waits] at hdelays
    cases hdelays

theorem InTime.idle (calls : h.calls = []) (waits : h.waits = []) : InTime clock deadline s h := by
  refine .of_short ?_ (by rw [calls]; rfl) waits
  rw [calls]
  exact fun m hm => absurd hm (Option.not_mem_none m)

theorem InTime.attempt {m : Step σ Rat} (calls : h.calls = [m]) (begins : clock m.before = clock s)
    (waits : h.waits = []) : InTime clock deadline s h := by
  refine .of_short ?_ (by rw [calls]; rfl) waits
  rw [calls]
  rintro m ⟨⟩
  exact begins

theorem InTime.begun (inTime : InTime clock deadline s h) (ahead : clock s ≤ deadline) :
    ∀ m ∈ h.calls, clock m.before ≤ deadline := by
  intro m hm
  have hfirst := inTime.first
  have hlater := inTime.later
  cases hh : h.calls with
  | nil =>
      rw [hh] at hm
      cases hm
  | cons m' ms =>
      rw [hh] at hm hfirst hlater
      obtain rfl | hm := List.mem_cons.mp hm
      · rw [hfirst m rfl]
        exact ahead
      · exact hlater m hm

theorem InTime.sum_le (inTime : InTime clock deadline s h) (ahead : clock s ≤ deadline) :
    clock s + h.delays.sum ≤ deadline := by
  by_cases hdelays : h.delays = []
  · rw [hdelays, List.sum_nil, add_zero]
    exact ahead
  · exact inTime.delays hdelays

theorem Passage.inTime (timed : w.Timed clock) (regular : b.Regular) (bound : b.limits.maxElapsed = some E)
    {f : Failure} (p : Passage w op request context b s f h b' t) (rest : InTime clock (b.start + E) t k) :
    InTime clock (b.start + E) s (h ++ k) := by
  cases p with
  | @intro looked answered consulted logged _ outcome f consultation d _ looks calls fails transient consults logs
      waits =>
      obtain ⟨hd, hdeadline⟩ := consults.in_time timed regular bound
      have hlooked := timed.of_looks looks
      have hanswered := timed.takes calls
      have hconsulted := consults.clock_eq timed
      have hlogged := timed.of_logs logs
      have hwaited := timed.elapsed hd waits
      -- The policy has checked that the wait ends by the deadline, so the rest begins while it is ahead.
      have hend : clock t ≤ b.start + E := by linarith
      have hspan : clock s + d ≤ clock t := by linarith
      refine ⟨?_, ?_, ?_, ?_⟩
      · rw [History.calls_append, consults.calls_between]
        rintro m ⟨⟩
        exact hlooked
      · rw [History.calls_append, consults.calls_between]
        exact rest.begun hend
      · rw [History.waits_append, consults.waits_between]
        intro m hm
        obtain rfl | hm := List.mem_cons.mp hm
        · exact hend
        · exact rest.waits m hm
      · rw [History.delays_append, consults.delays_between]
        intro _
        have hsum : (d :: k.delays).sum = d + k.delays.sum := List.sum_cons
        have hrest := rest.sum_le hend
        change clock s + (d :: k.delays).sum ≤ _
        linarith

theorem Passages.inTime (timed : w.Timed clock) (regular : b.Regular) (bound : b.limits.maxElapsed = some E)
    {n : Nat} (ps : Passages w op request context n b last s h b' last' t)
    (rest : InTime clock (b.start + E) t k) : InTime clock (b.start + E) s (h ++ k) := by
  induction ps with
  | none => exact rest
  | more p _ ih =>
      obtain ⟨rfl, -⟩ := p.policy
      rw [List.append_assoc]
      exact p.inTime timed regular bound (ih regular.issued bound rest)

theorem InTime.of_wait (timed : w.Timed clock) (regular : b.Regular) (bound : b.limits.maxElapsed = some E)
    {looked answered consulted logged waited : σ} {outcome : Except Failure (Option op.Response)}
    {consultation tail : History σ Rat} {d : Rat} {entry : LogEntry Rat} {answer : Except Incident Bool}
    (looks : w.cancelled s = (false, looked)) (calls : w.call op request looked = (outcome, answered))
    (consults : Consults w b answered consultation (some d) b' consulted)
    (logs : w.log entry consulted = ((), logged)) (waits : w.wait d logged = (answer, waited))
    (idle : tail.calls = [] ∧ tail.waits = [] ∧ tail.delays = []) :
    InTime clock (b.start + E) s ([⟨s, .asked false, looked⟩, ⟨looked, .called op request outcome, answered⟩] ++
      consultation ++ ⟨consulted, .logged entry, logged⟩ :: ⟨logged, .waited d answer, waited⟩ :: tail) := by
  obtain ⟨hd, hdeadline⟩ := consults.in_time timed regular bound
  have hlooked := timed.of_looks looks
  have hanswered := timed.takes calls
  have hconsulted := consults.clock_eq timed
  have hlogged := timed.of_logs logs
  obtain ⟨-, hwaited⟩ := timed.limited hd waits
  obtain ⟨hcalls, hwaits, hdelays⟩ := idle
  refine ⟨?_, ?_, ?_, ?_⟩
  · rw [consults.calls_between]
    rintro m ⟨⟩
    exact hlooked
  · rw [consults.calls_between]
    change ∀ m ∈ tail.calls, clock m.before ≤ _
    rw [hcalls]
    exact List.forall_mem_nil _
  · rw [consults.waits_between]
    intro m hm
    obtain rfl | hm := List.mem_cons.mp hm
    · change clock waited ≤ _
      linarith
    · change m ∈ tail.waits at hm
      rw [hwaits] at hm
      cases hm
  · rw [consults.delays_between]
    intro _
    change clock s + (d :: tail.delays).sum ≤ _
    rw [hdelays, List.sum_singleton]
    linarith

theorem Ending.inTime (timed : w.Timed clock) (regular : b.Regular) (bound : b.limits.maxElapsed = some E)
    (e : Ending w op request context b last s way h r s') : InTime clock (b.start + E) s h := by
  cases e with
  | returned looks | raised looks => exact .attempt rfl (timed.of_looks looks) rfl
  | exhausted looks _ _ _ consults =>
      exact .attempt consults.calls_between (timed.of_looks looks) consults.waits_between
  | calledOff => exact .idle rfl rfl
  | interrupted looks calls _ _ consults logs waits =>
      exact .of_wait timed regular bound looks calls consults logs waits ⟨rfl, rfl, rfl⟩
  | brokenOff looks calls _ _ consults logs waits =>
      exact .of_wait timed regular bound looks calls consults logs waits ⟨rfl, rfl, rfl⟩

theorem Passages.policy_eq {n : Nat} (ps : Passages w op request context n b last s h b' last' t) :
    b' = Backoff.issued^[h.waits.length] b := by
  induction ps with
  | none => rfl
  | more p _ ih =>
      have hretries := p.audited.retries
      obtain ⟨rfl, -⟩ := p.policy
      have hwaits : _ = 1 := (Nat.add_left_cancel hretries).symm
      rw [ih, History.waits_append, List.length_append, hwaits, Nat.add_comm, Function.iterate_succ_apply]

theorem Passages.start_eq {n : Nat} (ps : Passages w op request context n b last s h b' last' t) :
    b'.start = b.start := ps.keeps (P := fun p => p.start = b.start) id rfl

def OutOfTime (clock : σ → Rat) (deadline : Rat) (policy : Backoff Rat) (h : History σ Rat) (s' : σ) : Prop :=
  ∃ past asked x drawn now told told' read entry,
    h = past ++ [⟨asked, .drew x, drawn⟩, ⟨drawn, .read now, told⟩, ⟨told, .read told', read⟩,
      ⟨read, .logged entry, s'⟩] ∧
    now = clock s' ∧ deadline < now + policy.delay x

theorem OutOfTime.after {policy : Backoff Rat} (out : OutOfTime clock deadline policy k s') (h : History σ Rat) :
    OutOfTime clock deadline policy (h ++ k) s' := by
  obtain ⟨past, asked, x, drawn, now, told, told', read, entry, rfl, hnow, hlate⟩ := out
  exact ⟨h ++ past, asked, x, drawn, now, told, told', read, entry, (List.append_assoc ..).symm, hnow, hlate⟩

theorem Ending.waits_eq (e : Ending w op request context b last s .exhausted h r s') : h.waits = [] := by
  cases e with
  | exhausted _ _ _ _ consults => exact consults.waits_between

theorem Ending.outOfTime (timed : w.Timed clock) (bound : b.limits.maxElapsed = some E) (left : b.spent = false)
    (e : Ending w op request context b last s .exhausted h r s') :
    OutOfTime clock (b.start + E) b h s' := by
  cases e with
  | @exhausted looked answered consulted read _ _ _ _ now _ looks calls fails transient consults reads logs =>
      have hlogged := timed.of_logs logs
      obtain ⟨-, hread⟩ := timed.of_reads reads
      cases consults with
      | spent spent =>
          rw [left] at spent
          cases spent
      | @overruns x now drawn _ _ draws _ reads' overruns =>
          obtain ⟨hnow, hread'⟩ := timed.of_reads reads'
          have hover : E < now - b.start + b.delay x := by
            rw [Backoff.overruns, bound] at overruns
            exact of_decide_eq_true overruns
          refine ⟨[_, _], answered, x, drawn, now, consulted, _, read, _, rfl, ?_, by linarith⟩
          rw [hlogged, hread, hread', hnow]

theorem Course.inTime (timed : w.Timed clock) (regular : b.Regular) (bound : b.limits.maxElapsed = some E)
    (c : Course w op request context b last s h r s') : InTime clock (b.start + E) s h := by
  obtain ⟨n, passed, policy, last', u, way, ended, rfl, ps, e⟩ := c
  have hbound : policy.limits.maxElapsed = some E := by rw [ps.limits_eq, bound]
  have hended := e.inTime timed (ps.keeps Backoff.Regular.issued regular) hbound
  rw [ps.start_eq] at hended
  exact ps.inTime timed regular bound hended

theorem Course.outOfTime (timed : w.Timed clock) (bound : b.limits.maxElapsed = some E) (fresh : b.retries = 0)
    (c : Course w op request context b last s h r s') (aborts : Aborts op .exhausted h r)
    (left : (h.waits.length : Number) < b.limits.maxRetries) :
    OutOfTime clock (b.start + E) (Backoff.issued^[h.waits.length] b) h s' := by
  obtain ⟨n, passed, policy, last', u, way, ended, rfl, ps, e⟩ := c
  obtain rfl := Way.reason_eq_exhausted.mp ((ps.aborts_iff e .exhausted).mp aborts)
  have hwaits : History.waits (passed ++ ended) = passed.waits := by
    rw [History.waits_append, e.waits_eq, List.append_nil]
  have hretries : policy.retries = passed.waits.length := by rw [ps.audited.retries, fresh, Nat.zero_add]
  have hbound : policy.limits.maxElapsed = some E := by rw [ps.limits_eq, bound]
  have hspent : policy.spent = false := by
    apply decide_eq_false
    rw [ps.limits_eq, hretries]
    rw [hwaits] at left
    exact fun hle => Number.not_lt_of_le hle left
  have hout := e.outOfTime timed hbound hspent
  rw [ps.start_eq] at hout
  rw [hwaits, ← ps.policy_eq]
  exact hout.after passed

/-- Within the time allowed: each wait ends by then, as does the time before each attempt but the first, and the
delays are together no longer. -/
structure Punctual (clock : σ → Rat) (start E : Rat) (h : History σ Rat) : Prop where
  waits : ∀ m ∈ h.waits, clock m.after ≤ start + E
  attempts : ∀ m ∈ h.calls.tail, clock m.before ≤ start + E
  delays : h.delays.sum ≤ E

theorem InTime.punctual (inTime : InTime clock (clock s + E) s h) (nonneg : 0 ≤ E) :
    Punctual clock (clock s) E h where
  waits := inTime.waits
  attempts := inTime.later
  delays := by
    have hsum := inTime.sum_le (by linarith)
    linarith

/-- Where time is exact, the time allowed to a call is a deadline for its attempts and waits, in runs that do not end
as well; and a call that is given up with delays left would have waited past it. -/
theorem within_deadline (w : World σ Rat) (settings : RetrySettings) (op : Operation) (request : op.Request)
    (bounds : Bounds) (accepted : (bounds.limits settings).error? = none) {limits : Limits Rat}
    (exact : (bounds.limits settings).Denotes limits) {E : Rat} (bound : limits.maxElapsed = some E)
    {clock : σ → Rat} (timed : w.Timed clock) (s : σ) :
    (∀ n passed policy last u,
      Passages w op request (op.describe request) n (.begin limits (clock s)) none (w.now s).2 passed policy last u →
        Punctual clock (clock s) E passed) ∧
    ∀ r s' history, within w.observed op request limits (s, []) = some (r, (s', history)) →
      Punctual clock (clock s) E history ∧
        (Aborts op .exhausted history r → (history.waits.length : Number) < limits.maxRetries →
          OutOfTime clock (clock s + E) (Backoff.issued^[history.waits.length] (.begin limits (clock s))) history s') := by
  have sensible := exact.sensible (Limits.error?_eq_none.mp accepted)
  have regular := Backoff.begin_regular sensible (clock s)
  have hE : 0 ≤ E := by simpa using sensible.maxElapsed E bound
  obtain ⟨hnow, hclock⟩ : (w.now s).1 = clock s ∧ clock (w.now s).2 = clock s := timed.of_reads rfl
  have hpunctual {h : History σ Rat} (hh : InTime clock (clock s + E) (w.now s).2 h) :
      Punctual clock (clock s) E h := by
    rw [← hclock] at hh ⊢
    exact hh.punctual hE
  constructor
  · intro n passed policy last u ps
    have hrest : InTime clock (clock s + E) u [] := .idle rfl rfl
    have hpassed := ps.inTime timed regular bound hrest
    rw [List.append_nil] at hpassed
    exact hpunctual hpassed
  · intro r s' history run
    obtain ⟨start, t, h, hstart, rfl, c⟩ := within_observed_iff.mp run
    rw [hstart] at hnow hclock hpunctual
    obtain rfl : start = clock s := hnow
    have hh := hpunctual (c.inTime timed regular bound)
    refine ⟨⟨hh.waits, hh.attempts, hh.delays⟩, fun aborts left => ?_⟩
    have hout := c.outOfTime timed bound rfl aborts left
    exact hout.after [⟨s, .read (clock s), t⟩]

/-- A world that is its own clock: attempts take one unit of time and all fail for now. -/
def slow : World Rat Rat where
  call _ _ t := (.error (.transport ⟨some 503, .unstated⟩), t + 1)
  cancelled := pure false
  wait d t := (.ok false, t + d)
  now t := (t, t)
  draw := pure (1 / 2)
  log _ := pure ()

theorem slow_timed : slow.Timed id where
  tells := rfl
  still := by
    rintro ⟨t, event, t'⟩ allowed hcall hwait
    cases event with
    | called => cases hcall
    | waited => cases hwait
    | asked | drew | read | logged => exact (congrArg Prod.snd allowed).symm
  takes := by
    rintro op request t outcome t' ⟨⟩
    exact (lt_add_one t).le
  elapsed := by
    rintro d t t' _ ⟨⟩
    rfl
  limited := by
    rintro d t answer t' hd ⟨⟩
    exact ⟨le_add_of_nonneg_right hd, le_rfl⟩
  draws := by
    rintro t x t' ⟨⟩
    norm_num

theorem slow_within_deadline : ∃ limits r s' history,
    (Bounds.limits ⟨some (.int 3), none⟩ .default).error? = none ∧
      (Bounds.limits ⟨some (.int 3), none⟩ .default).Denotes limits ∧ slow.Timed id ∧
      within slow.observed .networkList ⟨none⟩ limits (0, []) = some (r, (s', history)) ∧
      Punctual id 0 3 history ∧ Aborts .networkList .exhausted history r ∧
      OutOfTime id (0 + 3) (Backoff.begin limits 0).issued history s' := by
  let limits : Limits Rat := ⟨some 3, .int 5, 1 / 2, 3 / 2, 1 / 2, 10⟩
  have accepted : (Bounds.limits ⟨some (.int 3), none⟩ .default).error? = none :=
    Option.isNone_iff_eq_none.mp (by decide +kernel)
  have exact : (Bounds.limits ⟨some (.int 3), none⟩ .default).Denotes limits :=
    ⟨by decide +kernel, by decide +kernel, by decide +kernel, by decide +kernel, by decide +kernel,
      by decide +kernel⟩
  let b : Backoff Rat := .begin limits 0
  let f : Failure := .transport ⟨some 503, .unstated⟩
  have fails : Passage slow .networkList ⟨none⟩ "node" b 0 f _ b.issued _ :=
    .intro rfl rfl (.raised _) rfl (.fits (by decide +kernel) rfl rfl rfl (by decide +kernel)) rfl rfl
  have ends : Ending slow .networkList ⟨none⟩ "node" b.issued (some f) (0 + 1 + b.delay (1 / 2)) .exhausted _
      (.error (.aborted .exhausted "network_list" "node" (some f))) _ :=
    .exhausted rfl rfl (.raised _) rfl (.overruns (by decide +kernel) rfl rfl rfl (by decide +kernel)) rfl rfl
  have passes : Passages slow .networkList ⟨none⟩ "node" 1 b none 0 _ b.issued (some f) (0 + 1 + b.delay (1 / 2)) :=
    .more fails (.none _ _ _)
  have run := within_observed_iff.mpr
    ⟨0, 0, _, rfl, (List.nil_append _).symm, ⟨_, _, _, _, _, _, _, rfl, passes, ends⟩⟩
  have haborts := (passes.aborts_iff ends .exhausted).mpr rfl
  obtain ⟨punctual, out⟩ := (within_deadline slow .default .networkList ⟨none⟩ ⟨some (.int 3), none⟩ accepted exact rfl
    slow_timed 0).2 _ _ _ run
  exact ⟨limits, _, _, _, accepted, exact, slow_timed, run, punctual, haborts, out haborts (by decide +kernel)⟩

end Fetch

end LedgerQuery
