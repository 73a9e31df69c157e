import LedgerQuery.Proofs.Fetch.Aftermath
import LedgerQuery.Proofs.Fetch.Reference
import LedgerQuery.Proofs.Fetch.Termination

namespace LedgerQuery

variable {σ α : Type}

namespace Event

def delay? : Event α → Option α
  | waited d _ => some d
  | _ => none

def entry? : Event α → Option (LogEntry α)
  | logged entry => some entry
  | _ => none

def isLapse : Event α → Bool
  | called op _ outcome =>
    match Fetch.judge op outcome with
    | .error f => f.isTransient
    | .ok _ => false
  | _ => false

end Event

namespace History

def delays (h : History σ α) : List α := h.filterMap (·.event.delay?)

def entries (h : History σ α) : List (LogEntry α) := h.filterMap (·.event.entry?)

def records (level : String) (h : History σ α) : List (LogEntry α) := h.entries.filter (·.level == level)

def lapses (h : History σ α) : History σ α := h.filter (·.event.isLapse)

variable (h k : History σ α)

@[simp]
theorem delays_append : delays (h ++ k) = delays h ++ delays k := List.filterMap_append

@[simp]
theorem entries_append : entries (h ++ k) = entries h ++ entries k := List.filterMap_append

@[simp]
theorem records_append (level : String) : records level (h ++ k) = records level h ++ records level k := by
  rw [records, entries_append, List.filter_append]
  rfl

@[simp]
theorem lapses_append : lapses (h ++ k) = lapses h ++ lapses k := List.filter_append ..

theorem length_delays : h.delays.length = h.waits.length := by
  induction h with
  | nil => rfl
  | cons m h ih =>
      rcases m with ⟨s, event, s'⟩
      cases event with
      | waited d c => exact congrArg (· + 1) ih
      | asked | called | drew | read | logged => exact ih

end History

namespace Backoff

variable [Add α] [Sub α] [Mul α] [LT α] [DecidableLT α]

/-- The delays that a policy issues when it is asked for the next one in each of these states, and the
policy as it is then. -/
def issues (w : World σ α) : Backoff α → List σ → List α × Backoff α
  | b, [] => ([], b)
  | b, s :: ss =>
    match (b.next w.draw w.now s).1 with
    | (none, b') => b'.issues w ss
    | (some d, b') => (d :: (b'.issues w ss).1, (b'.issues w ss).2)

theorem issues_append (w : World σ α) (b : Backoff α) (ss ts : List σ) :
    b.issues w (ss ++ ts) = ((b.issues w ss).1 ++ ((b.issues w ss).2.issues w ts).1,
      ((b.issues w ss).2.issues w ts).2) := by
  induction ss generalizing b with
  | nil => rfl
  | cons s ss ih =>
      rw [List.cons_append, issues, issues]
      rcases (b.next w.draw w.now s).1 with ⟨_ | d, b'⟩
      · exact ih b'
      · simp only [ih b', List.cons_append]

end Backoff

namespace Fetch

variable [Add α] [Sub α] [Mul α] [LT α] [DecidableLT α]

section

variable {w : World σ α} {b b' b'' : Backoff α} {s s' : σ} {h k : History σ α}

theorem Consults.silent {β : Type} {answer : Option α} (c : Consults w b s h answer b' s')
    (view : Event α → Option β) (drew : ∀ x, view (.drew x) = none) (read : ∀ t, view (.read t) = none) :
    h.filterMap (fun m => view m.event) = [] := by
  rw [List.filterMap_eq_nil_iff]
  intro m hm
  obtain ⟨x, hx⟩ | ⟨t, ht⟩ := c.event hm
  · rw [hx, drew]
  · rw [ht, read]

theorem Consults.delays_eq {answer : Option α} (c : Consults w b s h answer b' s') :
    History.delays h = [] := c.silent Event.delay? (fun _ => rfl) fun _ => rfl

theorem Consults.records_eq {answer : Option α} (c : Consults w b s h answer b' s') (level : String) :
    History.records level h = [] := by
  rw [History.records, History.entries, c.silent Event.entry? (fun _ => rfl) fun _ => rfl]
  rfl

theorem Consults.lapses_eq {answer : Option α} (c : Consults w b s h answer b' s') :
    History.lapses h = [] := by
  rw [History.lapses, List.filter_eq_nil_iff]
  intro m hm
  obtain ⟨x, hx⟩ | ⟨t, ht⟩ := c.event hm
  · simp [hx, Event.isLapse]
  · simp [ht, Event.isLapse]

theorem Consults.kept_eq (c : Consults w b s h none b' s') : b' = b := by
  cases c <;> rfl

theorem Consults.issues_eq {answer : Option α} (c : Consults w b s h answer b' s') :
    b.issues w [s] = (answer.toList, b') := by
  rw [Backoff.issues, c.next_eq]
  cases answer <;> rfl

theorem Consults.retries_eq {answer : Option α} (c : Consults w b s h answer b' s') :
    b'.retries = b.retries + answer.toList.length := by
  cases c <;> rfl

theorem issues_retries_le {n : Nat} (bound : b.limits.maxRetries = .int n) (le : b.retries ≤ n) (ss : List σ) :
    (b.issues w ss).2.retries ≤ n := by
  induction ss generalizing b with
  | nil => exact le
  | cons s ss ih =>
      obtain ⟨h, answer, b', s', c⟩ := consults_exists w b s
      rw [Backoff.issues, c.next_eq]
      cases answer with
      | none =>
          obtain rfl := c.kept_eq
          exact ih bound le
      | some d =>
          have hleft : b.retries < n := by
            have hnot := c.not_spent
            rw [bound, Number.natCast_def, Number.int_le_int] at hnot
            omega
          obtain rfl := c.issued_eq
          exact ih bound hleft

end

/-- The accounts of a part of a call, in which the policy goes from `b` to `b'`. -/
structure Audited (w : World σ α) (b : Backoff α) (h : History σ α) (b' : Backoff α) : Prop where
  issues : b.issues w (h.lapses.map (·.after)) = (h.delays, b')
  retries : b'.retries = b.retries + h.waits.length
  warnings : (h.records "WARNING").length = h.waits.length

theorem Audited.append {w : World σ α} {b b' b'' : Backoff α} {h k : History σ α} (first : Audited w b h b')
    (rest : Audited w b' k b'') : Audited w b (h ++ k) b'' where
  issues := by
    rw [History.lapses_append, List.map_append, Backoff.issues_append, first.issues, rest.issues,
      History.delays_append]
  retries := by
    rw [rest.retries, first.retries, History.waits_append, List.length_append, Nat.add_assoc]
  warnings := by
    rw [History.records_append, History.waits_append, List.length_append, List.length_append, first.warnings,
      rest.warnings]

/-- The call itself gives this reason for its end; it does not pass on a failure that an attempt raised. -/
def Aborts (op : Operation) (reason : AbortReason) (h : History σ α) (r : Except Failure op.Result) : Prop :=
  ∃ operation context last, r = .error (.aborted reason operation context last) ∧
    ∀ m ∈ h.calls, ∀ request, m.event ≠ .called op request (.error (.aborted reason operation context last))

def Way.reason : Way → Option AbortReason
  | returned | raised | brokenOff => none
  | exhausted => some .exhausted
  | cancelled => some .cancelled

@[simp]
theorem Way.reason_eq_exhausted {way : Way} : way.reason = some .exhausted ↔ way = .exhausted := by
  cases way <;> simp [reason]

@[simp]
theorem Way.reason_eq_cancelled {way : Way} : way.reason = some .cancelled ↔ way = .cancelled := by
  cases way <;> simp [reason]

section

variable {w : World σ α} {op : Operation} {request : op.Request} {context : String} {b b' : Backoff α}
  {last last' : Option Failure} {s s' : σ} {h k : History σ α} {r : Except Failure op.Result} {way : Way}
  {n : Nat}

section

variable {looked answered consulted : σ} {outcome : Except Failure (Option op.Response)} {f : Failure}
  {consultation tail : History σ α} {answer : Option α}

theorem Consults.calls_between (c : Consults w b answered consultation answer b' consulted) :
    History.calls ([⟨s, .asked false, looked⟩, ⟨looked, .called op request outcome, answered⟩] ++
      consultation ++ tail) = ⟨looked, .called op request outcome, answered⟩ :: tail.calls := by
  rw [History.calls_append, History.calls_append, c.calls_eq]
  rfl

theorem Consults.waits_between (c : Consults w b answered consultation answer b' consulted) :
    History.waits ([⟨s, .asked false, looked⟩, ⟨looked, .called op request outcome, answered⟩] ++
      consultation ++ tail) = tail.waits := by
  rw [History.waits_append, History.waits_append, c.waits_eq]
  rfl

theorem Consults.delays_between (c : Consults w b answered consultation answer b' consulted) :
    History.delays ([⟨s, .asked false, looked⟩, ⟨looked, .called op request outcome, answered⟩] ++
      consultation ++ tail) = tail.delays := by
  rw [History.delays_append, History.delays_append, c.delays_eq]
  rfl

theorem Consults.records_between (c : Consults w b answered consultation answer b' consulted) (level : String) :
    History.records level ([⟨s, .asked false, looked⟩, ⟨looked, .called op request outcome, answered⟩] ++
      consultation ++ tail) = tail.records level := by
  rw [History.records_append, History.records_append, c.records_eq]
  rfl

theorem Consults.lapses_between (c : Consults w b answered consultation answer b' consulted)
    (fails : Fails op outcome f) (transient : f.isTransient = true) :
    History.lapses ([⟨s, .asked false, looked⟩, ⟨looked, .called op request outcome, answered⟩] ++
      consultation ++ tail) = ⟨looked, .called op request outcome, answered⟩ :: tail.lapses := by
  rw [History.lapses_append, History.lapses_append, c.lapses_eq]
  simp [History.lapses, Event.isLapse, fails.judge_eq, transient]

theorem audited_lapse (fails : Fails op outcome f) (transient : f.isTransient = true)
    (consults : Consults w b answered consultation answer b' consulted) (lapses : tail.lapses = [])
    (delays : tail.delays = answer.toList)
    (warnings : (tail.records "WARNING").length = answer.toList.length) :
    Audited w b ([⟨s, .asked false, looked⟩, ⟨looked, .called op request outcome, answered⟩] ++ consultation ++
      tail) b' := by
  have hwaits : tail.waits.length = answer.toList.length := by rw [← History.length_delays, delays]
  refine ⟨?_, ?_, ?_⟩
  · rw [consults.lapses_between fails transient, consults.delays_between, lapses, delays]
    exact consults.issues_eq
  · rw [consults.waits_between, consults.retries_eq, hwaits]
  · rw [consults.records_between, consults.waits_between, warnings, hwaits]

end

theorem Passage.audited {f : Failure} (p : Passage w op request context b s f h b' s') :
    Audited w b h b' := by
  cases p with
  | intro _ _ fails transient consults => exact audited_lapse fails transient consults rfl rfl rfl

theorem Passages.audited (ps : Passages w op request context n b last s h b' last' s') : Audited w b h b' := by
  induction ps with
  | none => exact ⟨rfl, rfl, rfl⟩
  | more p _ ih => exact p.audited.append ih

theorem Ending.audited (e : Ending w op request context b last s way h r s') : ∃ b', Audited w b h b' := by
  cases e with
  | returned _ _ succeeds =>
      refine ⟨b, ?_, rfl, rfl⟩
      simp [History.lapses, Event.isLapse, succeeds.judge_eq, Backoff.issues, History.delays, Event.delay?]
  | raised _ _ fails permanent =>
      refine ⟨b, ?_, rfl, rfl⟩
      simp [History.lapses, Event.isLapse, fails.judge_eq, permanent, Backoff.issues, History.delays,
        Event.delay?]
  | exhausted _ _ fails transient consults => exact ⟨_, audited_lapse fails transient consults rfl rfl rfl⟩
  | calledOff => exact ⟨b, rfl, rfl, rfl⟩
  | interrupted _ _ fails transient consults | brokenOff _ _ fails transient consults =>
      exact ⟨_, audited_lapse fails transient consults rfl rfl rfl⟩

theorem Course.audited (c : Course w op request context b last s h r s') : ∃ b', Audited w b h b' := by
  obtain ⟨n, k, b', last', t, way, l, rfl, ps, e⟩ := c
  obtain ⟨b'', he⟩ := e.audited
  exact ⟨b'', ps.audited.append he⟩

structure Ongoing (h : History σ α) : Prop where
  lapses : h.lapses = h.calls
  waits : h.waits.length = h.calls.length
  errors : h.records "ERROR" = []
  notices : h.records "INFO" = []

omit [Add α] [Sub α] [Mul α] [LT α] [DecidableLT α] in
theorem Ongoing.append (first : Ongoing h) (rest : Ongoing k) : Ongoing (h ++ k) where
  lapses := by rw [History.lapses_append, History.calls_append, first.lapses, rest.lapses]
  waits := by
    rw [History.waits_append, History.calls_append, List.length_append, List.length_append, first.waits,
      rest.waits]
  errors := by rw [History.records_append, first.errors, rest.errors, List.append_nil]
  notices := by rw [History.records_append, first.notices, rest.notices, List.append_nil]

theorem Passage.ongoing {f : Failure} (p : Passage w op request context b s f h b' s') : Ongoing h := by
  cases p with
  | intro _ _ fails transient consults =>
      refine ⟨?_, ?_, ?_, ?_⟩
      · rw [consults.lapses_between fails transient, consults.calls_between]
        rfl
      · rw [consults.waits_between, consults.calls_between]
        rfl
      · exact consults.records_between _
      · exact consults.records_between _

theorem Passages.ongoing (ps : Passages w op request context n b last s h b' last' s') : Ongoing h := by
  induction ps with
  | none => exact ⟨rfl, rfl, rfl, rfl⟩
  | more p _ ih => exact p.ongoing.append ih

/-- What the end of a call adds to the accounts. -/
structure Closing (way : Way) (h : History σ α) : Prop where
  calls : h.calls.length ≤ h.waits.length + 1
  exhausts : way = .exhausted → h.calls.length = h.waits.length + 1
  lapses : way.reason.isSome → h.lapses = h.calls
  errors : (h.records "ERROR").length = if way = .exhausted then 1 else 0
  notices : (h.records "INFO").length = if way = .cancelled then 1 else 0

theorem Ending.closing (e : Ending w op request context b last s way h r s') : Closing way h := by
  cases e with
  | returned => exact ⟨le_rfl, nofun, nofun, rfl, rfl⟩
  | raised => exact ⟨le_rfl, nofun, nofun, rfl, rfl⟩
  | exhausted _ _ fails transient consults =>
      refine ⟨?_, fun _ => ?_, fun _ => ?_, ?_, ?_⟩
      · rw [consults.calls_between, consults.waits_between]
        exact le_rfl
      · rw [consults.calls_between, consults.waits_between]
        rfl
      · rw [consults.lapses_between fails transient, consults.calls_between]
        rfl
      · rw [consults.records_between]
        rfl
      · rw [consults.records_between]
        rfl
  | calledOff => exact ⟨Nat.zero_le _, nofun, fun _ => rfl, rfl, rfl⟩
  | interrupted _ _ fails transient consults =>
      refine ⟨?_, nofun, fun _ => ?_, ?_, ?_⟩
      · rw [consults.calls_between, consults.waits_between]
        exact Nat.le_succ _
      · rw [consults.lapses_between fails transient, consults.calls_between]
        rfl
      · rw [consults.records_between]
        rfl
      · rw [consults.records_between]
        rfl
  | brokenOff _ _ fails transient consults =>
      refine ⟨?_, nofun, nofun, ?_, ?_⟩
      · rw [consults.calls_between, consults.waits_between]
        exact Nat.le_succ _
      · rw [consults.records_between]
        rfl
      · rw [consults.records_between]
        rfl

omit [Add α] [Sub α] [Mul α] [LT α] [DecidableLT α] in
theorem not_raised_of_lapses (lapses : h.lapses = h.calls) {reason : AbortReason} {operation context : String} :
    ∀ m ∈ h.calls, ∀ request, m.event ≠ .called op request (.error (.aborted reason operation context last)) := by
  intro m hm request hevent
  rw [← lapses] at hm
  have hlapse := (List.mem_filter.mp hm).2
  rw [hevent] at hlapse
  cases hlapse

theorem Passages.aborts_iff {t : σ} (ps : Passages w op request context n b last s h b' last' t)
    (e : Ending w op request context b' last' t way k r s') (reason : AbortReason) :
    Aborts op reason (h ++ k) r ↔ way.reason = some reason := by
  constructor
  · rintro ⟨operation, context', last'', hr, unraised⟩
    cases e with
    | returned => cases hr
    | @raised looked s' outcome f looks calls fails permanent =>
        cases hr
        cases fails with
        | raised =>
            exact absurd rfl (unraised ⟨looked, .called op request _, s'⟩ (by simp [History.calls, Event.isCall])
              request)
    | brokenOff => cases hr
    | exhausted | calledOff | interrupted =>
        cases hr
        rfl
  · intro hreason
    have hlapses : (h ++ k).lapses = History.calls (h ++ k) := by
      rw [History.lapses_append, History.calls_append, ps.ongoing.lapses,
        e.closing.lapses (by rw [hreason]; rfl)]
    cases e with
    | returned | raised | brokenOff => cases hreason
    | exhausted | calledOff | interrupted =>
        cases hreason
        exact ⟨_, _, _, rfl, not_raised_of_lapses hlapses⟩

theorem Passages.keeps {P : Backoff α → Prop} (issued : ∀ {b}, P b → P b.issued)
    (ps : Passages w op request context n b last s h b' last' s') (hb : P b) : P b' := by
  induction ps with
  | none => exact hb
  | more p _ ih =>
      rw [p.policy.1] at ih
      exact ih (issued hb)

theorem Passages.limits_eq (ps : Passages w op request context n b last s h b' last' s') :
    b'.limits = b.limits := ps.keeps (P := fun p => p.limits = b.limits) id rfl

theorem Ending.spent (e : Ending w op request context b last s .exhausted h r s')
    (free : b.limits.maxElapsed = none) : b.limits.maxRetries ≤ (b.retries : Number) := by
  cases e with
  | exhausted _ _ _ _ consults =>
      cases consults with
      | spent spent => exact of_decide_eq_true spent
      | overruns _ _ bounded =>
          rw [free] at bounded
          cases bounded

end

/-- The accounts of a call whose policy begins as `b`, and may issue `n` delays. -/
structure Accounted (w : World σ α) (op : Operation) (b : Backoff α) (n : Nat) (h : History σ α)
    (r : Except Failure op.Result) : Prop where
  calls_le : h.calls.length ≤ n + 1
  waits_le : h.waits.length ≤ n
  /-- The call waits for the delays that its policy issues, which is asked after each attempt that fails for now. -/
  issues : (b.issues w (h.lapses.map (·.after))).1 = h.delays
  retries : (b.issues w (h.lapses.map (·.after))).2.retries = h.waits.length
  warnings : (h.records "WARNING").length = h.waits.length
  errors : Aborts op .exhausted h r → (h.records "ERROR").length = 1
  no_errors : ¬Aborts op .exhausted h r → h.records "ERROR" = []
  notices : Aborts op .cancelled h r → (h.records "INFO").length = 1
  no_notices : ¬Aborts op .cancelled h r → h.records "INFO" = []
  exhausts : Aborts op .exhausted h r → b.limits.maxElapsed = none → h.calls.length = n + 1

theorem Course.accounted {w : World σ α} {op : Operation} {request : op.Request} {context : String}
    {b : Backoff α} {last : Option Failure} {s s' : σ} {h : History σ α} {r : Except Failure op.Result}
    (c : Course w op request context b last s h r s') {n : Nat} (bound : b.limits.maxRetries = .int n)
    (fresh : b.retries = 0) : Accounted w op b n h r := by
  obtain ⟨p, haudited⟩ := c.audited
  have hretries : p.retries = h.waits.length := by rw [haudited.retries, fresh, Nat.zero_add]
  have hwaits : h.waits.length ≤ n := by
    have hle := issues_retries_le (w := w) bound (by omega) (h.lapses.map (·.after))
    rw [haudited.issues] at hle
    exact hretries ▸ hle
  obtain ⟨m, k, b', last', t, way, l, rfl, ps, e⟩ := c
  have hcalls : (History.calls (k ++ l)).length ≤ (History.waits (k ++ l)).length + 1 := by
    have hongoing := ps.ongoing.waits
    have hclosing := e.closing.calls
    rw [History.calls_append, History.waits_append, List.length_append, List.length_append]
    omega
  have herrors : (History.records "ERROR" (k ++ l)).length = if way = .exhausted then 1 else 0 := by
    rw [History.records_append, ps.ongoing.errors, List.nil_append, e.closing.errors]
  have hnotices : (History.records "INFO" (k ++ l)).length = if way = .cancelled then 1 else 0 := by
    rw [History.records_append, ps.ongoing.notices, List.nil_append, e.closing.notices]
  have hexhausted := ps.aborts_iff e .exhausted
  have hcancelled := ps.aborts_iff e .cancelled
  rw [Way.reason_eq_exhausted] at hexhausted
  rw [Way.reason_eq_cancelled] at hcancelled
  refine ⟨by omega, hwaits, by rw [haudited.issues], by rw [haudited.issues]; exact hretries,
    haudited.warnings, ?_, ?_, ?_, ?_, ?_⟩
  · intro haborts
    rw [herrors, if_pos (hexhausted.mp haborts)]
  · intro hnot
    rw [← List.length_eq_zero_iff, herrors, if_neg (mt hexhausted.mpr hnot)]
  · intro haborts
    rw [hnotices, if_pos (hcancelled.mp haborts)]
  · intro hnot
    rw [← List.length_eq_zero_iff, hnotices, if_neg (mt hcancelled.mpr hnot)]
  · intro haborts free
    obtain rfl := hexhausted.mp haborts
    have hspent := e.spent (ps.limits_eq ▸ free)
    rw [ps.limits_eq, bound, Number.natCast_def, Number.int_le_int, ps.audited.retries, fresh] at hspent
    have hclosing := e.closing.exhausts rfl
    have hongoing := ps.ongoing.waits
    rw [History.waits_append, List.length_append] at hwaits
    rw [History.calls_append, List.length_append]
    omega

/-- Where the bound on its retries is a whole number, a call always ends, and its accounts are right. -/
theorem retried_accounts {σ : Type} (w : World σ Number) (settings : RetrySettings) (op : Operation)
    (request : op.Request) (bounds : Bounds) {n : Nat} (bound : (bounds.limits settings).maxRetries = .int n)
    (s : σ) :
    ∃ r s' history, retried w settings op request bounds s = some (r, s') ∧
      retried w.observed settings op request bounds (s, []) = some (r, (s', history)) ∧
      Accounted w op (.begin (bounds.limits settings) (w.now s).1) n history r := by
  cases accepted : (bounds.limits settings).error? with
  | some e =>
      refine ⟨.error (.limits e), s, [], ?_, ?_, ?_⟩
      · simp only [retried, accepted]
        rfl
      · simp only [retried, accepted]
        rfl
      · have hnot {reason : AbortReason} : ¬Aborts op reason ([] : History σ Number) (.error (.limits e)) := by
          rintro ⟨_, _, _, hr, -⟩
          cases hr
        exact ⟨Nat.zero_le _, Nat.zero_le _, rfl, rfl, rfl, fun h => absurd h hnot, fun _ => rfl,
          fun h => absurd h hnot, fun _ => rfl, fun h => absurd h hnot⟩
  | none =>
      obtain ⟨r, ⟨s', history⟩, run⟩ := retried_terminates w.observed settings op request bounds (n := n)
        (by rw [bound]; exact Number.int_le_int.mpr le_rfl) (s, [])
      refine ⟨r, s', history, (retried_iff_observed accepted).mpr ⟨history, run⟩, run, ?_⟩
      obtain ⟨start, t, h, hstart, rfl, c⟩ := (retried_observed_iff accepted).mp run
      rw [hstart]
      have haccounted := c.accounted bound rfl
      exact ⟨haccounted.calls_le, haccounted.waits_le, haccounted.issues, haccounted.retries,
        haccounted.warnings, haccounted.errors, haccounted.no_errors, haccounted.notices,
        haccounted.no_notices, haccounted.exhausts⟩

/-- A world whose attempts all fail for now. -/
def hopeless : World Unit Number where
  call _ _ := pure (.error (.transport ⟨some 503, .unstated⟩))
  cancelled := pure false
  wait _ := pure (.ok false)
  now := pure (.int 0)
  draw := pure (.float 0.5)
  log _ := pure ()

def patient : RetrySettings := { RetrySettings.default with maxElapsed := none }

theorem hopeless_accounts : ∃ r history,
    retried hopeless.observed patient .networkList ⟨none⟩ ⟨none, some (.int 2)⟩ ((), []) = some (r, ((), history)) ∧
      Accounted hopeless .networkList (.begin (Bounds.limits ⟨none, some (.int 2)⟩ patient) (.int 0)) 2 history r ∧
      Aborts .networkList .exhausted history r ∧ history.calls.length = 3 := by
  obtain ⟨r, ⟨⟩, history, -, run, accounted⟩ :=
    retried_accounts hopeless patient .networkList ⟨none⟩ ⟨none, some (.int 2)⟩ (n := 2) rfl ()
  have accepted : (Bounds.limits ⟨none, some (.int 2)⟩ patient).error? = none :=
    Option.isNone_iff_eq_none.mp (by decide +kernel)
  let b : Backoff Number := .begin (Bounds.limits ⟨none, some (.int 2)⟩ patient) (.int 0)
  let f : Failure := .transport ⟨some 503, .unstated⟩
  have first : Passage hopeless .networkList ⟨none⟩ "node" b () f _ b.issued () :=
    .intro rfl rfl (.raised _) rfl (.unbounded (by decide +kernel) rfl rfl) rfl rfl
  have second : Passage hopeless .networkList ⟨none⟩ "node" b.issued () f _ b.issued.issued () :=
    .intro rfl rfl (.raised _) rfl (.unbounded (by decide +kernel) rfl rfl) rfl rfl
  have ends : Ending hopeless .networkList ⟨none⟩ "node" b.issued.issued (some f) () .exhausted _
      (.error (.aborted .exhausted "network_list" "node" (some f))) () :=
    .exhausted rfl rfl (.raised _) rfl (.spent (by decide +kernel)) rfl rfl
  have passes : Passages hopeless .networkList ⟨none⟩ "node" 2 b none () _ b.issued.issued (some f) () :=
    .more first (.more second (.none _ _ _))
  have observed := (retried_observed_iff accepted).mpr
    ⟨_, _, _, rfl, (List.nil_append _).symm, ⟨_, _, _, _, _, _, _, rfl, passes, ends⟩⟩
  have haborts := (passes.aborts_iff ends .exhausted).mpr rfl
  rw [run] at observed
  cases observed
  exact ⟨_, _, run, accounted, haborts, accounted.exhausts haborts rfl⟩

end Fetch

end LedgerQuery
