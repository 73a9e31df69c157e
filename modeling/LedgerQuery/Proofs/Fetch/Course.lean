import LedgerQuery.Proofs.Fetch.History

namespace LedgerQuery.Fetch

variable {σ α : Type}

section

variable {β γ : Type}

theorem bind_apply (x : StateM σ β) (f : β → StateM σ γ) (s : σ) :
    (x >>= f) s = f (x s).1 (x s).2 := rfl

theorem pure_apply (b : β) (s : σ) : (pure b : StateM σ β) s = (b, s) := rfl

theorem map_apply (f : β → γ) (x : StateM σ β) (s : σ) : (f <$> x) s = (f (x s).1, (x s).2) := rfl

end

/-- How an outcome of the transport fails: by itself, or because its answer breaks a rule. -/
inductive Fails (op : Operation) : Except Failure (Option op.Response) → Failure → Prop
  | raised (f : Failure) : Fails op (.error f) f
  | refused {response : Option op.Response} {v : Violation} (h : op.validate response = .error v) :
      Fails op (.ok response) (.violation v)

inductive Succeeds (op : Operation) : Except Failure (Option op.Response) → op.Result → Prop
  | intro {response : Option op.Response} {r : op.Result} (valid : op.validate response = .ok ())
      (extracts : op.extract response = .ok r) : Succeeds op (.ok response) r

theorem validate_none (op : Operation) : ∃ v, op.validate none = .error v := by
  cases op <;> exact ⟨_, rfl⟩

theorem extract_of_validate {op : Operation} {response : Option op.Response}
    (h : op.validate response = .ok ()) : ∃ r, op.extract response = .ok r := by
  cases response with
  | none =>
      obtain ⟨v, hv⟩ := validate_none op
      rw [hv] at h
      cases h
  | some r => cases op <;> exact ⟨_, rfl⟩

theorem Fails.judge_eq {op : Operation} {outcome : Except Failure (Option op.Response)} {f : Failure}
    (h : Fails op outcome f) : judge op outcome = .error f := by
  cases h with
  | raised => rfl
  | refused h => simp [judge, accept, h]

theorem Succeeds.judge_eq {op : Operation} {outcome : Except Failure (Option op.Response)} {r : op.Result}
    (h : Succeeds op outcome r) : judge op outcome = .ok r := by
  cases h with
  | intro valid extracts => simp [judge, accept, valid, extracts]

theorem succeeds_or_fails (op : Operation) (outcome : Except Failure (Option op.Response)) :
    (∃ r, Succeeds op outcome r) ∨ ∃ f, Fails op outcome f := by
  cases outcome with
  | error f => exact .inr ⟨f, .raised f⟩
  | ok response =>
      cases h : op.validate response with
      | error v => exact .inr ⟨_, .refused h⟩
      | ok =>
          obtain ⟨r, hr⟩ := extract_of_validate h
          exact .inl ⟨r, .intro h hr⟩

theorem succeeds_iff {op : Operation} {outcome : Except Failure (Option op.Response)} {r : op.Result} :
    Succeeds op outcome r ↔ judge op outcome = .ok r := by
  refine ⟨Succeeds.judge_eq, fun h => ?_⟩
  obtain ⟨q, hq⟩ | ⟨f, hf⟩ := succeeds_or_fails op outcome
  · rw [hq.judge_eq] at h
    cases h
    exact hq
  · rw [hf.judge_eq] at h
    cases h

variable [Add α] [Sub α] [Mul α] [LT α] [DecidableLT α]

inductive Consults (w : World σ α) (b : Backoff α) (s : σ) :
    History σ α → Option α → Backoff α → σ → Prop
  | spent (spent : b.spent = true) : Consults w b s [] none b s
  | unbounded {x : α} {s' : σ} (left : b.spent = false) (draws : w.draw s = (x, s'))
      (unbounded : b.limits.maxElapsed = none) :
      Consults w b s [⟨s, .drew x, s'⟩] (some (b.delay x)) b.issued s'
  | fits {x now : α} {drawn s' : σ} (left : b.spent = false) (draws : w.draw s = (x, drawn))
      (bounded : b.limits.maxElapsed.isSome = true) (reads : w.now drawn = (now, s'))
      (fits : b.overruns now (b.delay x) = false) :
      Consults w b s [⟨s, .drew x, drawn⟩, ⟨drawn, .read now, s'⟩] (some (b.delay x)) b.issued s'
  | overruns {x now : α} {drawn s' : σ} (left : b.spent = false) (draws : w.draw s = (x, drawn))
      (bounded : b.limits.maxElapsed.isSome = true) (reads : w.now drawn = (now, s'))
      (overruns : b.overruns now (b.delay x) = true) :
      Consults w b s [⟨s, .drew x, drawn⟩, ⟨drawn, .read now, s'⟩] none b s'

theorem Consults.next_eq {w : World σ α} {b b' : Backoff α} {s s' : σ} {h : History σ α}
    {answer : Option α} (c : Consults w b s h answer b' s') :
    b.next w.draw w.now s = ((answer, b'), s') := by
  cases c with
  | spent hs => simp [Backoff.next, hs, pure_apply]
  | unbounded left draws hm => simp [Backoff.next, left, hm, bind_apply, pure_apply, draws]
  | fits left draws hm reads ho | overruns left draws hm reads ho =>
      simp [Backoff.next, left, hm, bind_apply, pure_apply, draws, reads, ho]

theorem Consults.next_observed {w : World σ α} {b b' : Backoff α} {s s' : σ} {h : History σ α}
    {answer : Option α} (c : Consults w b s h answer b' s') (past : History σ α) :
    b.next w.observed.draw w.observed.now (s, past) = ((answer, b'), (s', past ++ h)) := by
  cases c with
  | spent hs => simp [Backoff.next, hs, pure_apply]
  | unbounded left draws hm =>
      simp [Backoff.next, left, hm, bind_apply, pure_apply, draws]
  | fits left draws hm reads ho | overruns left draws hm reads ho =>
      simp [Backoff.next, left, hm, bind_apply, pure_apply, draws, reads, ho]

theorem consults_exists (w : World σ α) (b : Backoff α) (s : σ) :
    ∃ h answer b' s', Consults w b s h answer b' s' := by
  rcases hd : w.draw s with ⟨x, drawn⟩
  rcases hn : w.now drawn with ⟨now, s'⟩
  cases hs : b.spent with
  | true => exact ⟨_, _, _, _, .spent hs⟩
  | false =>
      cases hm : b.limits.maxElapsed with
      | none => exact ⟨_, _, _, _, .unbounded hs hd hm⟩
      | some bound =>
          have hb : b.limits.maxElapsed.isSome = true := by rw [hm, Option.isSome_some]
          cases ho : b.overruns now (b.delay x) with
          | false => exact ⟨_, _, _, _, .fits hs hd hb hn ho⟩
          | true => exact ⟨_, _, _, _, .overruns hs hd hb hn ho⟩

variable (w : World σ α) (op : Operation) (request : op.Request) (context : String)

omit [Add α] [Sub α] [Mul α] [LT α] [DecidableLT α] in
theorem checked_apply (s : σ) :
    checked w op request s = (judge op (w.call op request s).1, (w.call op request s).2) := rfl

omit [Add α] [Sub α] [Mul α] [LT α] [DecidableLT α] in
theorem cancel_apply (last : Option Failure) (s : σ) :
    cancel w op context last s = (.error (.aborted .cancelled op.name context last),
      (w.log (.cancelled op.name context) s).2) := rfl

omit [Add α] [Mul α] [LT α] [DecidableLT α] in
theorem exhaust_apply (b : Backoff α) (f : Failure) (s : σ) :
    exhaust w op context b f s = (.error (.aborted .exhausted op.name context (some f)),
      (w.log (.gaveUp op.name context b.retries (b.elapsed (w.now s).1) f) (w.now s).2).2) := rfl

/-- An attempt that fails for now, and what follows it up to the next one. -/
inductive Passage (b : Backoff α) (s : σ) : Failure → History σ α → Backoff α → σ → Prop
  | intro {looked answered consulted logged s' : σ} {outcome : Except Failure (Option op.Response)}
      {f : Failure} {consultation : History σ α} {d : α} {b' : Backoff α}
      (looks : w.cancelled s = (false, looked))
      (calls : w.call op request looked = (outcome, answered))
      (fails : Fails op outcome f)
      (transient : f.isTransient = true)
      (consults : Consults w b answered consultation (some d) b' consulted)
      (logs : w.log (.retrying op.name context f d) consulted = ((), logged))
      (waits : w.wait d logged = (.ok false, s')) :
      Passage b s f
        ([⟨s, .asked false, looked⟩, ⟨looked, .called op request outcome, answered⟩] ++ consultation ++
          [⟨consulted, .logged (.retrying op.name context f d), logged⟩, ⟨logged, .waited d (.ok false), s'⟩])
        b' s'

inductive Way
  | returned
  | raised
  | exhausted
  | cancelled
  | brokenOff
deriving DecidableEq

/-- The end of a call; `last` is the failure of the attempt before. -/
inductive Ending (b : Backoff α) (last : Option Failure) (s : σ) :
    Way → History σ α → Except Failure op.Result → σ → Prop
  | returned {looked s' : σ} {outcome : Except Failure (Option op.Response)} {r : op.Result}
      (looks : w.cancelled s = (false, looked))
      (calls : w.call op request looked = (outcome, s'))
      (succeeds : Succeeds op outcome r) :
      Ending b last s .returned [⟨s, .asked false, looked⟩, ⟨looked, .called op request outcome, s'⟩] (.ok r) s'
  | raised {looked s' : σ} {outcome : Except Failure (Option op.Response)} {f : Failure}
      (looks : w.cancelled s = (false, looked))
      (calls : w.call op request looked = (outcome, s'))
      (fails : Fails op outcome f)
      (permanent : f.isTransient = false) :
      Ending b last s .raised [⟨s, .asked false, looked⟩, ⟨looked, .called op request outcome, s'⟩] (.error f) s'
  | exhausted {looked answered consulted read s' : σ} {outcome : Except Failure (Option op.Response)}
      {f : Failure} {consultation : History σ α} {now : α} {b' : Backoff α}
      (looks : w.cancelled s = (false, looked))
      (calls : w.call op request looked = (outcome, answered))
      (fails : Fails op outcome f)
      (transient : f.isTransient = true)
      (consults : Consults w b answered consultation none b' consulted)
      (reads : w.now consulted = (now, read))
      (logs : w.log (.gaveUp op.name context b'.retries (b'.elapsed now) f) read = ((), s')) :
      Ending b last s .exhausted
        ([⟨s, .asked false, looked⟩, ⟨looked, .called op request outcome, answered⟩] ++ consultation ++
          [⟨consulted, .read now, read⟩,
            ⟨read, .logged (.gaveUp op.name context b'.retries (b'.elapsed now) f), s'⟩])
        (.error (.aborted .exhausted op.name context (some f))) s'
  | calledOff {looked s' : σ}
      (looks : w.cancelled s = (true, looked))
      (logs : w.log (.cancelled op.name context) looked = ((), s')) :
      Ending b last s .cancelled
        [⟨s, .asked true, looked⟩, ⟨looked, .logged (.cancelled op.name context), s'⟩]
        (.error (.aborted .cancelled op.name context last)) s'
  | interrupted {looked answered consulted logged waited s' : σ}
      {outcome : Except Failure (Option op.Response)} {f : Failure} {consultation : History σ α} {d : α}
      {b' : Backoff α}
      (looks : w.cancelled s = (false, looked))
      (calls : w.call op request looked = (outcome, answered))
      (fails : Fails op outcome f)
      (transient : f.isTransient = true)
      (consults : Consults w b answered consultation (some d) b' consulted)
      (logs : w.log (.retrying op.name context f d) consulted = ((), logged))
      (waits : w.wait d logged = (.ok true, waited))
      (logs' : w.log (.cancelled op.name context) waited = ((), s')) :
      Ending b last s .cancelled
        ([⟨s, .asked false, looked⟩, ⟨looked, .called op request outcome, answered⟩] ++ consultation ++
          [⟨consulted, .logged (.retrying op.name context f d), logged⟩, ⟨logged, .waited d (.ok true), waited⟩,
            ⟨waited, .logged (.cancelled op.name context), s'⟩])
        (.error (.aborted .cancelled op.name context (some f))) s'
  | brokenOff {looked answered consulted logged s' : σ} {outcome : Except Failure (Option op.Response)}
      {f : Failure} {consultation : History σ α} {d : α} {b' : Backoff α} {i : Incident}
      (looks : w.cancelled s = (false, looked))
      (calls : w.call op request looked = (outcome, answered))
      (fails : Fails op outcome f)
      (transient : f.isTransient = true)
      (consults : Consults w b answered consultation (some d) b' consulted)
      (logs : w.log (.retrying op.name context f d) consulted = ((), logged))
      (waits : w.wait d logged = (.error i, s')) :
      Ending b last s .brokenOff
        ([⟨s, .asked false, looked⟩, ⟨looked, .called op request outcome, answered⟩] ++ consultation ++
          [⟨consulted, .logged (.retrying op.name context f d), logged⟩, ⟨logged, .waited d (.error i), s'⟩])
        (.error (.incident i)) s'

/-- Passages one after the other, `n` of them; `last` and `last'` are the failures of the attempt before
and of the last one. -/
inductive Passages : Nat → Backoff α → Option Failure → σ → History σ α → Backoff α → Option Failure → σ → Prop
  | none (b : Backoff α) (last : Option Failure) (s : σ) : Passages 0 b last s [] b last s
  | more {n : Nat} {b b' b'' : Backoff α} {last last' : Option Failure} {s t s' : σ} {f : Failure}
      {h k : History σ α} (first : Passage w op request context b s f h b' t)
      (rest : Passages n b' (some f) t k b'' last' s') :
      Passages (n + 1) b last s (h ++ k) b'' last' s'

def Course (b : Backoff α) (last : Option Failure) (s : σ) (h : History σ α) (r : Except Failure op.Result)
    (s' : σ) : Prop :=
  ∃ n k b' last' t way l, h = k ++ l ∧ Passages w op request context n b last s k b' last' t ∧
    Ending w op request context b' last' t way l r s'

section

variable {w : World σ α} {op : Operation} {request : op.Request} {context : String} {b b' : Backoff α}
  {last : Option Failure} {s s' : σ} {h : History σ α}

theorem Passage.round_eq {f : Failure} (p : Passage w op request context b s f h b' s') :
    round w op request context b last s = (.again b' f, s') := by
  cases p with
  | intro looks calls fails transient consults logs waits =>
      simp [round, checked_apply, bind_apply, pure_apply, looks, calls, fails.judge_eq, transient,
        consults.next_eq, logs, waits]

theorem Passage.round_observed {f : Failure} (p : Passage w op request context b s f h b' s')
    (past : History σ α) :
    round w.observed op request context b last (s, past) = (.again b' f, (s', past ++ h)) := by
  cases p with
  | intro looks calls fails transient consults logs waits =>
      simp [round, checked_apply, bind_apply, pure_apply, looks, calls, fails.judge_eq, transient,
        consults.next_observed, logs, waits]

theorem Ending.round_eq {way : Way} {r : Except Failure op.Result}
    (e : Ending w op request context b last s way h r s') :
    round w op request context b last s = (.over r, s') := by
  cases e with
  | returned looks calls succeeds =>
      simp [round, checked_apply, bind_apply, pure_apply, looks, calls, succeeds.judge_eq]
  | raised looks calls fails permanent =>
      simp [round, checked_apply, bind_apply, pure_apply, looks, calls, fails.judge_eq, permanent]
  | exhausted looks calls fails transient consults reads logs =>
      simp [round, checked_apply, exhaust_apply, bind_apply, map_apply, looks, calls, fails.judge_eq, transient,
        consults.next_eq, reads, logs]
  | calledOff looks logs => simp [round, cancel_apply, bind_apply, map_apply, looks, logs]
  | interrupted looks calls fails transient consults logs waits logs' =>
      simp [round, checked_apply, cancel_apply, bind_apply, map_apply, looks, calls, fails.judge_eq, transient,
        consults.next_eq, logs, waits, logs']
  | brokenOff looks calls fails transient consults logs waits =>
      simp [round, checked_apply, bind_apply, pure_apply, looks, calls, fails.judge_eq, transient,
        consults.next_eq, logs, waits]

theorem Ending.round_observed {way : Way} {r : Except Failure op.Result}
    (e : Ending w op request context b last s way h r s') (past : History σ α) :
    round w.observed op request context b last (s, past) = (.over r, (s', past ++ h)) := by
  cases e with
  | returned looks calls succeeds =>
      simp [round, checked_apply, bind_apply, pure_apply, looks, calls, succeeds.judge_eq]
  | raised looks calls fails permanent =>
      simp [round, checked_apply, bind_apply, pure_apply, looks, calls, fails.judge_eq, permanent]
  | exhausted looks calls fails transient consults reads logs =>
      simp [round, checked_apply, exhaust_apply, bind_apply, map_apply, looks, calls, fails.judge_eq, transient,
        consults.next_observed, reads, logs]
  | calledOff looks logs => simp [round, cancel_apply, bind_apply, map_apply, looks, logs]
  | interrupted looks calls fails transient consults logs waits logs' =>
      simp [round, checked_apply, cancel_apply, bind_apply, map_apply, looks, calls, fails.judge_eq, transient,
        consults.next_observed, logs, waits, logs']
  | brokenOff looks calls fails transient consults logs waits =>
      simp [round, checked_apply, bind_apply, pure_apply, looks, calls, fails.judge_eq, transient,
        consults.next_observed, logs, waits]

theorem Course.of_ending {way : Way} {r : Except Failure op.Result}
    (e : Ending w op request context b last s way h r s') : Course w op request context b last s h r s' :=
  ⟨0, [], b, last, s, way, h, rfl, .none b last s, e⟩

theorem Course.of_passage {f : Failure} {t : σ} {k : History σ α} {r : Except Failure op.Result}
    (p : Passage w op request context b s f h b' t)
    (c : Course w op request context b' (some f) t k r s') :
    Course w op request context b last s (h ++ k) r s' := by
  obtain ⟨n, k, b'', last', u, way, l, rfl, ps, e⟩ := c
  exact ⟨n + 1, h ++ k, b'', last', u, way, l, (List.append_assoc ..).symm, .more p ps, e⟩

variable (w op request context b last s)

theorem passage_or_ending :
    (∃ f h b' s', Passage w op request context b s f h b' s') ∨
      ∃ way h r s', Ending w op request context b last s way h r s' := by
  rcases hl : w.cancelled s with ⟨c, looked⟩
  cases c with
  | true => exact .inr ⟨_, _, _, _, .calledOff hl rfl⟩
  | false =>
      rcases hc : w.call op request looked with ⟨outcome, answered⟩
      obtain ⟨r, hr⟩ | ⟨f, hf⟩ := succeeds_or_fails op outcome
      · exact .inr ⟨_, _, _, _, .returned hl hc hr⟩
      · cases ht : f.isTransient with
        | false => exact .inr ⟨_, _, _, _, .raised hl hc hf ht⟩
        | true =>
            obtain ⟨h, answer, b', consulted, hn⟩ := consults_exists w b answered
            cases answer with
            | none => exact .inr ⟨_, _, _, _, .exhausted hl hc hf ht hn rfl rfl⟩
            | some d =>
                rcases hw : w.wait d (w.log (.retrying op.name context f d) consulted).2 with ⟨c, waited⟩
                match c with
                | .ok false => exact .inl ⟨_, _, _, _, .intro hl hc hf ht hn rfl hw⟩
                | .ok true => exact .inr ⟨_, _, _, _, .interrupted hl hc hf ht hn rfl hw rfl⟩
                | .error i => exact .inr ⟨_, _, _, _, .brokenOff hl hc hf ht hn rfl hw⟩

variable {w op request context b last s}

theorem Passage.attempts_eq {f : Failure} (p : Passage w op request context b s f h b' s') :
    w.attempts op request context b last s = w.attempts op request context b' (some f) s' := by
  rw [World.attempts, p.round_eq]

theorem Passage.attempts_observed {f : Failure} (p : Passage w op request context b s f h b' s')
    (past : History σ α) :
    w.observed.attempts op request context b last (s, past) =
      w.observed.attempts op request context b' (some f) (s', past ++ h) := by
  rw [World.attempts, p.round_observed]

theorem Passages.attempts_eq {n : Nat} {last' : Option Failure}
    (ps : Passages w op request context n b last s h b' last' s') :
    w.attempts op request context b last s = w.attempts op request context b' last' s' := by
  induction ps with
  | none => rfl
  | more p _ ih => rw [p.attempts_eq, ih]

theorem Passages.attempts_observed {n : Nat} {last' : Option Failure}
    (ps : Passages w op request context n b last s h b' last' s') (past : History σ α) :
    w.observed.attempts op request context b last (s, past) =
      w.observed.attempts op request context b' last' (s', past ++ h) := by
  induction ps generalizing past with
  | none => rw [List.append_nil]
  | more p _ ih => rw [p.attempts_observed, ih, List.append_assoc]

theorem Passages.last_transient {n : Nat} {b' : Backoff α} {last last' : Option Failure}
    (ps : Passages w op request context n b last s h b' last' s')
    (transient : ∀ f ∈ last, f.isTransient = true) : ∀ f ∈ last', f.isTransient = true := by
  induction ps with
  | none => exact transient
  | more p _ ih =>
      cases p with
      | intro _ _ _ transient' =>
          apply ih
          rintro f ⟨⟩
          exact transient'

theorem Course.attempts_eq {r : Except Failure op.Result}
    (c : Course w op request context b last s h r s') :
    w.attempts op request context b last s = some (r, s') := by
  obtain ⟨n, k, b', last', t, way, l, rfl, ps, e⟩ := c
  rw [ps.attempts_eq, World.attempts, e.round_eq]

theorem Course.attempts_observed {r : Except Failure op.Result}
    (c : Course w op request context b last s h r s') (past : History σ α) :
    w.observed.attempts op request context b last (s, past) = some (r, (s', past ++ h)) := by
  obtain ⟨n, k, b', last', t, way, l, rfl, ps, e⟩ := c
  rw [ps.attempts_observed, World.attempts, e.round_observed, List.append_assoc]

/-- A run that ends has a course: by induction on the rounds that it takes. -/
theorem course_of_attempts {r : Except Failure op.Result}
    (run : w.attempts op request context b last s = some (r, s')) :
    ∃ h, Course w op request context b last s h r s' := by
  refine World.attempts.partial_correctness w op request context
    (fun b last s x => ∃ h, Course w op request context b last s h x.1 x.2) ?_ b last s (r, s') run
  intro further ih b last s x hx
  obtain ⟨f, h, b', t, p⟩ | ⟨way, h, r, t, e⟩ := passage_or_ending w op request context b last s
  · rw [p.round_eq] at hx
    obtain ⟨k, c⟩ := ih b' (some f) t x hx
    exact ⟨h ++ k, .of_passage p c⟩
  · rw [e.round_eq] at hx
    cases hx
    exact ⟨h, .of_ending e⟩

theorem course_of_attempts_observed {past past' : History σ α} {r : Except Failure op.Result}
    (run : w.observed.attempts op request context b last (s, past) = some (r, (s', past'))) :
    ∃ h, past' = past ++ h ∧ Course w op request context b last s h r s' := by
  refine World.attempts.partial_correctness w.observed op request context
    (fun b last s x => ∃ h, x.2.2 = s.2 ++ h ∧ Course w op request context b last s.1 h x.1 x.2.1)
    ?_ b last (s, past) (r, (s', past')) run
  rintro further ih b last ⟨s, past⟩ x hx
  obtain ⟨f, h, b', t, p⟩ | ⟨way, h, r, t, e⟩ := passage_or_ending w op request context b last s
  · rw [p.round_observed] at hx
    obtain ⟨k, hk, c⟩ := ih b' (some f) (t, past ++ h) x hx
    exact ⟨h ++ k, by rw [hk, List.append_assoc], .of_passage p c⟩
  · rw [e.round_observed] at hx
    cases hx
    exact ⟨h, rfl, .of_ending e⟩

end

theorem retried_apply (w : World σ Number) {settings : RetrySettings} (op : Operation) (request : op.Request)
    {bounds : Bounds} (accepted : (bounds.limits settings).error? = none) (s : σ) :
    retried w settings op request bounds s =
      w.attempts op request (op.describe request) (.begin (bounds.limits settings) (w.now s).1) none
        (w.now s).2 := by
  simp only [retried, accepted]
  rfl

end LedgerQuery.Fetch
