import LedgerQuery.Proofs.Fetch.Aftermath
import LedgerQuery.Proofs.Fetch.Reference

namespace LedgerQuery

variable {σ α : Type}

/-- A world in which the wish to cancel stays. A look at the wish ends with its answer, so that what comes
later is part of the step after it; between a wait that ran its course and its end the wish may still come
about. Where it is set, a wait ends at once, and one that fails does so before anything can come about. -/
structure World.Latched (w : World σ α) (isSet : σ → Prop) : Prop where
  stays : ∀ m, w.Allows m → isSet m.before → isSet m.after
  looked : ∀ {s c s'}, w.cancelled s = (c, s') → (c = true ↔ isSet s')
  interrupted : ∀ {d s s'}, w.wait d s = (.ok true, s') → isSet s'
  elapsed : ∀ {d s s'}, w.wait d s = (.ok false, s') → ¬isSet s
  failed : ∀ {d s i s'}, w.wait d s = (.error i, s') → ¬isSet s'

namespace Fetch

section

variable [Add α] [Sub α] [Mul α] [LT α] [DecidableLT α] {w : World σ α} {isSet : σ → Prop}
  {op : Operation} {request : op.Request} {context : String} {b : Backoff α} {last : Option Failure}
  {s s' : σ} {h past rest between : History σ α} {r : Except Failure op.Result} {m : Step σ α}
  {outcome : Except Failure (Option op.Response)}

theorem Course.of_set (latched : w.Latched isSet) (set : isSet s)
    (c : Course w op request context b last s h r s') :
    r = .error (.aborted .cancelled op.name context last) ∧ h.calls = [] ∧ h.waits = [] := by
  obtain ⟨looked, looks, logs, rfl, rfl⟩ | ⟨looked, outcome, answered, rest, looks, -, -, -⟩ := c.opens
  · exact ⟨rfl, rfl, rfl⟩
  · have hset : isSet looked := latched.stays ⟨s, .asked false, looked⟩ looks set
    exact absurd ((latched.looked looks).mpr hset) Bool.false_ne_true

theorem Course.set_before_calls (latched : w.Latched isSet)
    (c : Course w op request context b last s h r s') (split : h = past ++ m :: rest)
    (nocall : past.calls = []) (hm : m.event.isCall = false) (unset : ¬isSet m.before)
    (set : isSet m.after) :
    m.event = .asked true ∧ r = .error (.aborted .cancelled op.name context last) ∧ rest.calls = [] ∧
      rest.waits = [] := by
  obtain ⟨looked, looks, logs, rfl, rfl⟩ | ⟨looked, outcome, answered, tail, looks, -, rfl, -⟩ := c.opens
  · obtain ⟨rfl, rfl, rfl⟩ | ⟨past, rfl, split₁⟩ := split_cons split
    · exact ⟨rfl, rfl, rfl, rfl⟩
    · obtain ⟨rfl, rfl, rfl⟩ | ⟨past, rfl, split₂⟩ := split_cons split₁
      · exact absurd ((latched.looked looks).mp rfl) unset
      · simp at split₂
  · obtain ⟨rfl, rfl, rfl⟩ | ⟨past, rfl, split₁⟩ := split_cons split
    · exact absurd ((latched.looked looks).mpr set) Bool.false_ne_true
    · obtain ⟨rfl, rfl, rfl⟩ | ⟨past, rfl, -⟩ := split_cons split₁
      · cases hm
      · cases nocall

theorem Consults.stays (latched : w.Latched isSet) {answer : Option α} {b' : Backoff α}
    (c : Consults w b s h answer b' s') (set : isSet s) : isSet s' :=
  c.unfolds.lasts latched.stays set

variable (w op context b s) in
def Subsides (f : Failure) (rest : History σ α) (r : Except Failure op.Result) : Prop :=
  match (b.next w.draw w.now s).1.1 with
  | none => r = .error (.aborted .exhausted op.name context (some f)) ∧ rest.waits = []
  | some d =>
    r = .error (.aborted .cancelled op.name context (some f)) ∧ ∃ u u', rest.waits = [⟨u, .waited d (.ok true), u'⟩]

/-- What is left of a call once the wish is set in an attempt: the attempt is judged as ever, but no further
one is made. -/
theorem Aftermath.of_set (latched : w.Latched isSet) (set : isSet s)
    (after : Aftermath w op request context b outcome s h r s') :
    h.calls = [] ∧
    match judge op outcome with
    | .ok v => r = .ok v ∧ h = []
    | .error f => if f.isTransient then Subsides w op context b s f h r else r = .error f ∧ h = [] := by
  cases after with
  | returned succeeds => simp [succeeds.judge_eq, History.calls]
  | raised fails permanent => simp [fails.judge_eq, permanent, History.calls]
  | exhausted fails transient consults =>
      refine ⟨consults.calls_append _, ?_⟩
      simp only [fails.judge_eq, transient, Subsides, consults.next_eq, consults.waits_append, if_true, true_and]
      rfl
  | interrupted fails transient consults =>
      refine ⟨consults.calls_append _, ?_⟩
      simp only [fails.judge_eq, transient, Subsides, consults.next_eq, consults.waits_append, if_true, true_and]
      exact ⟨_, _, rfl⟩
  | brokenOff fails transient consults logs waits =>
      have hset := latched.stays ⟨_, .logged _, _⟩ logs (consults.stays latched set)
      exact absurd (latched.stays ⟨_, .waited _ _, _⟩ waits hset) (latched.failed waits)
  | passed fails transient consults logs waits further =>
      have hset := latched.stays ⟨_, .logged _, _⟩ logs (consults.stays latched set)
      exact absurd hset (latched.elapsed waits)

/-- What is left of a call once the wish is set between this attempt and the next: at a wait or a look the
failure of the attempt is what the call ends with at once. -/
theorem Aftermath.set_after (latched : w.Latched isSet)
    (after : Aftermath w op request context b outcome s h r s') (split : h = between ++ m :: rest)
    (nocall : between.calls = []) (hm : m.event.isCall = false) (unset : ¬isSet m.before)
    (set : isSet m.after) :
    ∃ f, Fails op outcome f ∧ f.isTransient = true ∧ rest.calls = [] ∧
      if m.event.tells.isSome then
        r = .error (.aborted .cancelled op.name context (some f)) ∧ rest.waits = []
      else Subsides w op context b s f rest r := by
  cases after with
  | returned => simp at split
  | raised => simp at split
  | exhausted fails transient consults =>
      have htells : m.event.tells = none := by
        have hmem := split ▸ List.mem_append_right between (List.mem_cons_self (a := m) (l := rest))
        obtain hc | hq := List.mem_append.mp hmem
        · exact consults.tells hc
        · simp only [List.mem_cons, List.not_mem_nil, or_false] at hq
          obtain rfl | rfl := hq <;> rfl
      have hcalls := History.calls_of_split (split ▸ consults.calls_append _)
      have hwaits := History.waits_of_split (split ▸ consults.waits_append _)
      refine ⟨_, fails, transient, hcalls, ?_⟩
      simp only [htells, Subsides, consults.next_eq, true_and]
      exact hwaits
  | interrupted fails transient consults logs waits logs' =>
      obtain ⟨tail, rfl, rfl⟩ | ⟨past, rfl, split₁⟩ := split_append split
      · have htells : m.event.tells = none := consults.tells (by simp)
        have hcalls := History.calls_of_split consults.calls_eq
        have hwaits := History.waits_of_split consults.waits_eq
        refine ⟨_, fails, transient, ?_, ?_⟩
        · rw [History.calls_append, hcalls]
          rfl
        · simp only [htells, Subsides, consults.next_eq, History.waits_append, hwaits, true_and]
          exact ⟨_, _, rfl⟩
      · obtain ⟨rfl, rfl, rfl⟩ | ⟨past, rfl, split₂⟩ := split_cons split₁
        · refine ⟨_, fails, transient, rfl, ?_⟩
          simp only [Event.tells, Subsides, consults.next_eq, true_and]
          exact ⟨_, _, rfl⟩
        · obtain ⟨rfl, rfl, rfl⟩ | ⟨past, rfl, split₃⟩ := split_cons split₂
          · exact ⟨_, fails, transient, rfl, rfl, rfl⟩
          · obtain ⟨rfl, rfl, rfl⟩ | ⟨past, rfl, split₄⟩ := split_cons split₃
            · exact absurd (latched.interrupted waits) unset
            · simp at split₄
  | brokenOff fails transient consults logs waits =>
      have unfolds : w.Unfolds s (between ++ m :: rest) s' := split ▸ World.unfolds_append.mpr
        ⟨_, consults.unfolds, .cons (m := ⟨_, .logged _, _⟩) logs (.cons (m := ⟨_, .waited _ _, _⟩) waits (.nil _))⟩
      exact absurd (unfolds.of_split.lasts latched.stays set) (latched.failed waits)
  | passed fails transient consults logs waits further =>
      -- The wait has run its course, so that the wish was not set when it began.
      have hunset := latched.elapsed waits
      obtain ⟨tail, hleft, rfl⟩ | ⟨past, rfl, split₁⟩ := split_append split
      · obtain ⟨tail, rfl, rfl⟩ | ⟨past, rfl, split₁⟩ := split_append hleft
        · have hconsulted := consults.unfolds.of_split.lasts latched.stays set
          exact absurd (latched.stays ⟨_, .logged _, _⟩ logs hconsulted) hunset
        · obtain ⟨rfl, rfl, rfl⟩ | ⟨past, rfl, split₂⟩ := split_cons split₁
          · exact absurd set hunset
          · obtain ⟨rfl, rfl, rfl⟩ | ⟨past, rfl, split₃⟩ := split_cons split₂
            · obtain ⟨hr, hcalls, hwaits⟩ := further.of_set latched set
              exact ⟨_, fails, transient, hcalls, hr, hwaits⟩
            · simp at split₃
      · have hpast : History.calls past = [] := by
          rw [History.calls_append] at nocall
          exact (List.append_eq_nil_iff.mp nocall).2
        obtain ⟨hm', hr, hcalls, hwaits⟩ := further.set_before_calls latched split₁ hpast hm unset set
        refine ⟨_, fails, transient, hcalls, ?_⟩
        simp only [hm', Event.tells]
        exact ⟨hr, hwaits⟩

theorem Passage.unfolds {f : Failure} {b' : Backoff α}
    (p : Passage w op request context b s f h b' s') : w.Unfolds s h s' := by
  cases p with
  | intro looks calls fails transient consults logs waits =>
      refine World.unfolds_append.mpr ⟨_, World.unfolds_append.mpr ⟨_, ?_, consults.unfolds⟩, ?_⟩
      · exact .cons (m := ⟨_, .asked _, _⟩) looks (.cons (m := ⟨_, .called _ _ _, _⟩) calls (.nil _))
      · exact .cons (m := ⟨_, .logged _, _⟩) logs (.cons (m := ⟨_, .waited _ _, _⟩) waits (.nil _))

theorem Passages.unfolds {n : Nat} {b' : Backoff α} {last' : Option Failure}
    (ps : Passages w op request context n b last s h b' last' s') : w.Unfolds s h s' := by
  induction ps with
  | none b last s => exact .nil s
  | more p _ ih => exact World.unfolds_append.mpr ⟨_, p.unfolds, ih⟩

theorem Passages.snoc {n : Nat} {b' b'' : Backoff α} {last' : Option Failure} {f : Failure} {t : σ}
    {k : History σ α} (ps : Passages w op request context n b last s h b' last' s')
    (p : Passage w op request context b' s' f k b'' t) :
    Passages w op request context (n + 1) b last s (h ++ k) b'' (some f) t := by
  induction ps with
  | none b last s =>
      rw [List.nil_append, ← List.append_nil k]
      exact .more p (.none ..)
  | more first _ ih =>
      rw [List.append_assoc]
      exact .more first (ih p)

variable (op request context b last) in
theorem course_of_set (latched : w.Latched isSet) (set : isSet s) :
    ∃ h s', Course w op request context b last s h (.error (.aborted .cancelled op.name context last)) s' := by
  rcases hlooked : w.cancelled s with ⟨c, looked⟩
  have hset : isSet looked := latched.stays ⟨s, .asked c, looked⟩ hlooked set
  obtain rfl := (latched.looked hlooked).mpr hset
  exact ⟨_, _, .of_ending (.calledOff hlooked rfl)⟩

theorem passages_of_endless (latched : w.Latched isSet)
    (endless : w.attempts op request context b last s = none) (n : Nat) :
    ∃ h b' last' s', Passages w op request context n b last s h b' last' s' ∧ ∀ m ∈ h, ¬isSet m.after := by
  have hpassages : ∃ h b' last' s', Passages w op request context n b last s h b' last' s' := by
    induction n with
    | zero => exact ⟨_, _, _, _, .none b last s⟩
    | succ n ih =>
        obtain ⟨h, b', last', s', ps⟩ := ih
        obtain ⟨f, k, b'', t, p⟩ | ⟨way, k, r, t, e⟩ := passage_or_ending w op request context b' last' s'
        · exact ⟨_, _, _, _, ps.snoc p⟩
        · rw [ps.attempts_eq, (Course.of_ending e).attempts_eq] at endless
          cases endless
  obtain ⟨h, b', last', s', ps⟩ := hpassages
  refine ⟨h, b', last', s', ps, ?_⟩
  intro m hm set
  obtain ⟨past, rest, rfl⟩ := List.append_of_mem hm
  have hset : isSet s' := ps.unfolds.of_split.lasts latched.stays set
  obtain ⟨k, t, c⟩ := course_of_set op request context b' last' latched hset
  rw [ps.attempts_eq, c.attempts_eq] at endless
  cases endless

end

variable {σ : Type}

/-- How a call ends whose wish to cancel is set in the step `m` of its history. -/
structure Stopped (w : World σ Number) (op : Operation) (request : op.Request) (begun : Backoff Number)
    (past : History σ Number) (m : Step σ Number) (rest : History σ Number) (r : Except Failure op.Result) :
    Prop where
  no_attempt : rest.calls = []
  during_attempt : m.event.isCall = true → ∃ outcome, m.event = .called op request outcome ∧
    match judge op outcome with
    | .ok v => r = .ok v ∧ rest = []
    | .error f =>
      if f.isTransient then
        Subsides w op (op.describe request) (Backoff.issued^[past.waits.length] begun) m.after f rest r
      else r = .error f ∧ rest = []
  before_attempts : m.event.isCall = false → past.calls = [] →
    r = .error (.aborted .cancelled op.name (op.describe request) none) ∧ rest.waits = []
  /-- After an attempt only its failure is left, and at most the one wait that was still to come. -/
  after_attempt : m.event.isCall = false → ∀ earlier attempt (between : History σ Number),
    past = earlier ++ attempt :: between → attempt.event.isCall = true → between.calls = [] →
    ∃ outcome f, attempt.event = .called op request outcome ∧ Fails op outcome f ∧ f.isTransient = true ∧
      if m.event.tells.isSome then
        r = .error (.aborted .cancelled op.name (op.describe request) (some f)) ∧ rest.waits = []
      else
        Subsides w op (op.describe request) (Backoff.issued^[History.waits earlier |>.length] begun)
          attempt.after f rest r

theorem Course.stopped {w : World σ Number} {isSet : σ → Prop} (latched : w.Latched isSet) {op : Operation}
    {request : op.Request} {begun : Backoff Number} {s t s' : σ} {start : Number} {h past rest : History σ Number}
    {r : Except Failure op.Result} {m : Step σ Number}
    (c : Course w op request (op.describe request) begun none t h r s')
    (split : (⟨s, .read start, t⟩ :: h : History σ Number) = past ++ m :: rest) (unset : ¬isSet m.before)
    (set : isSet m.after) : Stopped w op request begun past m rest r := by
  obtain ⟨rfl, rfl, rfl⟩ | ⟨past, rfl, split₁⟩ := split_cons split
  · obtain ⟨hr, hcalls, hwaits⟩ := c.of_set latched set
    exact ⟨hcalls, nofun, fun _ _ => ⟨hr, hwaits⟩, fun _ earlier attempt between heq => by simp at heq⟩
  · cases hm : m.event.isCall with
    | true =>
        obtain ⟨asked, outcome, -, -, hevent, after⟩ := c.at_call hm split₁
        obtain ⟨hcalls, hr⟩ := after.of_set latched set
        exact ⟨hcalls, fun _ => ⟨outcome, hevent, hr⟩, by simp [hm], by simp [hm]⟩
    | false =>
        have hafter : ∀ earlier attempt (between : History σ Number), past = earlier ++ attempt :: between →
            attempt.event.isCall = true → between.calls = [] → rest.calls = [] ∧
            ∃ outcome f, attempt.event = .called op request outcome ∧ Fails op outcome f ∧
              f.isTransient = true ∧
              if m.event.tells.isSome then
                r = .error (.aborted .cancelled op.name (op.describe request) (some f)) ∧ rest.waits = []
              else
                Subsides w op (op.describe request) (Backoff.issued^[History.waits earlier |>.length] begun)
                  attempt.after f rest r := by
          rintro earlier attempt between rfl hattempt hbetween
          rw [List.append_assoc] at split₁
          obtain ⟨asked, outcome, -, -, hevent, after⟩ := c.at_call hattempt split₁
          obtain ⟨f, fails, transient, hcalls, hr⟩ := after.set_after latched rfl hbetween hm unset set
          exact ⟨hcalls, outcome, f, hevent, fails, transient, hr⟩
        have hbefore : History.calls past = [] → r = .error (.aborted .cancelled op.name (op.describe request) none) ∧
            rest.calls = [] ∧ rest.waits = [] := fun hnone =>
          (c.set_before_calls latched split₁ hnone hm unset set).2
        refine ⟨?_, by simp [hm], fun _ hnone => ?_, ?_⟩
        · by_cases hnone : History.calls past = []
          · exact (hbefore hnone).2.1
          · obtain ⟨earlier, attempt, between, heq, hattempt, hbetween⟩ := History.last_call hnone
            exact (hafter earlier attempt between heq hattempt hbetween).1
        · obtain ⟨hr, -, hwaits⟩ := hbefore hnone
          exact ⟨hr, hwaits⟩
        · intro _ earlier attempt between heq hattempt hbetween
          obtain ⟨rfl, rfl, rfl⟩ | ⟨earlier, rfl, heq₁⟩ := split_cons heq
          · cases hattempt
          · exact (hafter earlier attempt between heq₁ hattempt hbetween).2

/-- A world whose attempts fail, and whose wish to cancel is set during the first; the state counts them. -/
def interrupted : World Nat Number where
  call _ _ := fun n => (.error (.transport ⟨none, .unstated⟩), n + 1)
  cancelled := fun n => (decide (0 < n), n)
  wait _ := fun n => (.ok (decide (0 < n)), n)
  now := pure (.int 0)
  draw := pure (.float 0.5)
  log _ := pure ()

end Fetch

end LedgerQuery
