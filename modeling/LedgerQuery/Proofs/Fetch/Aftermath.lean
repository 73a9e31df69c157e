import LedgerQuery.Proofs.Fetch.Course
import Mathlib.Logic.Function.Iterate

namespace LedgerQuery.Fetch

variable {σ α : Type}

theorem split_cons {β : Type} {l past rest : List β} {x y : β} (h : y :: l = past ++ x :: rest) :
    (past = [] ∧ y = x ∧ l = rest) ∨ ∃ past', past = y :: past' ∧ l = past' ++ x :: rest := by
  cases past with
  | nil =>
      obtain ⟨hx, hl⟩ := List.cons.inj h
      exact .inl ⟨rfl, hx, hl⟩
  | cons z past =>
      obtain ⟨rfl, hl⟩ := List.cons.inj h
      exact .inr ⟨past, rfl, hl⟩

theorem split_append {β : Type} {l k past rest : List β} {x : β} (h : l ++ k = past ++ x :: rest) :
    (∃ between, l = past ++ x :: between ∧ rest = between ++ k) ∨
      ∃ past', past = l ++ past' ∧ k = past' ++ x :: rest := by
  induction l generalizing past with
  | nil => exact .inr ⟨past, rfl, h⟩
  | cons y l ih =>
      obtain ⟨rfl, rfl, rfl⟩ | ⟨past, rfl, hl⟩ := split_cons h
      · exact .inl ⟨l, rfl, rfl⟩
      · obtain ⟨between, rfl, rfl⟩ | ⟨past', rfl, rfl⟩ := ih hl
        · exact .inl ⟨between, rfl, rfl⟩
        · exact .inr ⟨past', rfl, rfl⟩

theorem behind {β : Type} {p : β → Prop} {l k past rest : List β} {x : β} (hl : ∀ y ∈ l, ¬p y)
    (hx : p x) (h : l ++ k = past ++ x :: rest) : ∃ past', past = l ++ past' ∧ k = past' ++ x :: rest := by
  obtain ⟨between, rfl, -⟩ | hbehind := split_append h
  · exact absurd hx (hl x (by simp))
  · exact hbehind

variable [Add α] [Sub α] [Mul α] [LT α] [DecidableLT α]

section

variable {w : World σ α} {b b' : Backoff α} {s s' : σ} {h : History σ α}

theorem Consults.event {answer : Option α} (c : Consults w b s h answer b' s') {m : Step σ α}
    (hm : m ∈ h) : (∃ x, m.event = .drew x) ∨ ∃ t, m.event = .read t := by
  cases c with
  | spent => cases hm
  | unbounded =>
      obtain rfl := List.mem_singleton.mp hm
      exact .inl ⟨_, rfl⟩
  | fits | overruns =>
      obtain rfl | hm := List.mem_cons.mp hm
      · exact .inl ⟨_, rfl⟩
      · obtain rfl := List.mem_singleton.mp hm
        exact .inr ⟨_, rfl⟩

theorem Consults.issued_eq {d : α} (c : Consults w b s h (some d) b' s') : b' = b.issued := by
  cases c <;> rfl

theorem Consults.not_call {answer : Option α} (c : Consults w b s h answer b' s') {m : Step σ α}
    (hm : m ∈ h) : ¬m.event.isCall = true := by
  obtain ⟨x, hx⟩ | ⟨t, ht⟩ := c.event hm
  · simp [hx, Event.isCall]
  · simp [ht, Event.isCall]

theorem Consults.not_wait {answer : Option α} (c : Consults w b s h answer b' s') {m : Step σ α}
    (hm : m ∈ h) : ¬m.event.isWait = true := by
  obtain ⟨x, hx⟩ | ⟨t, ht⟩ := c.event hm
  · simp [hx, Event.isWait]
  · simp [ht, Event.isWait]

theorem Consults.waits_eq {answer : Option α} (c : Consults w b s h answer b' s') :
    History.waits h = [] := List.filter_eq_nil_iff.mpr fun _ hm => c.not_wait hm

theorem Consults.waits_append {answer : Option α} (c : Consults w b s h answer b' s') (k : History σ α) :
    History.waits (h ++ k) = k.waits := by
  rw [History.waits_append, c.waits_eq, List.nil_append]

theorem Consults.calls_eq {answer : Option α} (c : Consults w b s h answer b' s') :
    History.calls h = [] := List.filter_eq_nil_iff.mpr fun _ hm => c.not_call hm

theorem Consults.calls_append {answer : Option α} (c : Consults w b s h answer b' s') (k : History σ α) :
    History.calls (h ++ k) = k.calls := by
  rw [History.calls_append, c.calls_eq, List.nil_append]

theorem Consults.tells {answer : Option α} (c : Consults w b s h answer b' s') {m : Step σ α}
    (hm : m ∈ h) : m.event.tells = none := by
  obtain ⟨x, hx⟩ | ⟨t, ht⟩ := c.event hm
  · simp [hx, Event.tells]
  · simp [ht, Event.tells]

theorem Consults.breaksOff_eq {answer : Option α} (c : Consults w b s h answer b' s') :
    History.breaksOff h = false := by
  rw [History.breaksOff, List.any_eq_false]
  intro m hm
  obtain ⟨x, hx⟩ | ⟨t, ht⟩ := c.event hm
  · simp [hx, Event.breaksOff]
  · simp [ht, Event.breaksOff]

theorem Consults.unfolds {answer : Option α} (c : Consults w b s h answer b' s') : w.Unfolds s h s' := by
  cases c with
  | spent => exact .nil s
  | unbounded left draws => exact .cons (m := ⟨_, .drew _, _⟩) draws (.nil s')
  | fits left draws _ reads | overruns left draws _ reads =>
      exact .cons (m := ⟨_, .drew _, _⟩) draws (.cons (m := ⟨_, .read _, _⟩) reads (.nil s'))

end

variable (w : World σ α) (op : Operation) (request : op.Request) (context : String)

/-- What may follow an attempt with this outcome, which the policy `b` has let pass so far. -/
inductive Aftermath (b : Backoff α) (outcome : Except Failure (Option op.Response)) (s : σ) :
    History σ α → Except Failure op.Result → σ → Prop
  | returned {r : op.Result} (succeeds : Succeeds op outcome r) : Aftermath b outcome s [] (.ok r) s
  | raised {f : Failure} (fails : Fails op outcome f) (permanent : f.isTransient = false) :
      Aftermath b outcome s [] (.error f) s
  | exhausted {f : Failure} {consultation : History σ α} {now : α} {b' : Backoff α} {consulted read s' : σ}
      (fails : Fails op outcome f) (transient : f.isTransient = true)
      (consults : Consults w b s consultation none b' consulted)
      (reads : w.now consulted = (now, read))
      (logs : w.log (.gaveUp op.name context b'.retries (b'.elapsed now) f) read = ((), s')) :
      Aftermath b outcome s
        (consultation ++ [⟨consulted, .read now, read⟩,
          ⟨read, .logged (.gaveUp op.name context b'.retries (b'.elapsed now) f), s'⟩])
        (.error (.aborted .exhausted op.name context (some f))) s'
  | interrupted {f : Failure} {d : α} {consultation : History σ α} {b' : Backoff α}
      {consulted logged waited s' : σ} (fails : Fails op outcome f) (transient : f.isTransient = true)
      (consults : Consults w b s consultation (some d) b' consulted)
      (logs : w.log (.retrying op.name context f d) consulted = ((), logged))
      (waits : w.wait d logged = (.ok true, waited))
      (logs' : w.log (.cancelled op.name context) waited = ((), s')) :
      Aftermath b outcome s
        (consultation ++ [⟨consulted, .logged (.retrying op.name context f d), logged⟩,
          ⟨logged, .waited d (.ok true), waited⟩, ⟨waited, .logged (.cancelled op.name context), s'⟩])
        (.error (.aborted .cancelled op.name context (some f))) s'
  | brokenOff {f : Failure} {d : α} {consultation : History σ α} {b' : Backoff α} {consulted logged s' : σ}
      {i : Incident} (fails : Fails op outcome f) (transient : f.isTransient = true)
      (consults : Consults w b s consultation (some d) b' consulted)
      (logs : w.log (.retrying op.name context f d) consulted = ((), logged))
      (waits : w.wait d logged = (.error i, s')) :
      Aftermath b outcome s
        (consultation ++ [⟨consulted, .logged (.retrying op.name context f d), logged⟩,
          ⟨logged, .waited d (.error i), s'⟩])
        (.error (.incident i)) s'
  | passed {f : Failure} {d : α} {consultation h : History σ α} {b' : Backoff α}
      {consulted logged t s' : σ} {r : Except Failure op.Result} (fails : Fails op outcome f)
      (transient : f.isTransient = true)
      (consults : Consults w b s consultation (some d) b' consulted)
      (logs : w.log (.retrying op.name context f d) consulted = ((), logged))
      (waits : w.wait d logged = (.ok false, t))
      (further : Course w op request context b' (some f) t h r s') :
      Aftermath b outcome s
        (consultation ++ [⟨consulted, .logged (.retrying op.name context f d), logged⟩,
          ⟨logged, .waited d (.ok false), t⟩] ++ h) r s'

section

variable {w op request context} {b : Backoff α} {last : Option Failure} {s s' : σ} {h : History σ α}
  {r : Except Failure op.Result}

theorem Course.opens (c : Course w op request context b last s h r s') :
    (∃ looked, w.cancelled s = (true, looked) ∧ w.log (.cancelled op.name context) looked = ((), s') ∧
      h = [⟨s, .asked true, looked⟩, ⟨looked, .logged (.cancelled op.name context), s'⟩] ∧
      r = .error (.aborted .cancelled op.name context last)) ∨
    ∃ looked outcome answered rest, w.cancelled s = (false, looked) ∧
      w.call op request looked = (outcome, answered) ∧
      h = ⟨s, .asked false, looked⟩ :: ⟨looked, .called op request outcome, answered⟩ :: rest ∧
      Aftermath w op request context b outcome answered rest r s' := by
  obtain ⟨n, k, b', last', t, way, l, rfl, ps, e⟩ := c
  cases ps with
  | none =>
      cases e with
      | returned looks calls succeeds => exact .inr ⟨_, _, _, _, looks, calls, rfl, .returned succeeds⟩
      | raised looks calls fails permanent =>
          exact .inr ⟨_, _, _, _, looks, calls, rfl, .raised fails permanent⟩
      | exhausted looks calls fails transient consults reads logs =>
          exact .inr ⟨_, _, _, _, looks, calls, rfl, .exhausted fails transient consults reads logs⟩
      | calledOff looks logs => exact .inl ⟨_, looks, logs, rfl, rfl⟩
      | interrupted looks calls fails transient consults logs waits logs' =>
          exact .inr ⟨_, _, _, _, looks, calls, rfl,
            .interrupted fails transient consults logs waits logs'⟩
      | brokenOff looks calls fails transient consults logs waits =>
          exact .inr ⟨_, _, _, _, looks, calls, rfl, .brokenOff fails transient consults logs waits⟩
  | more p rest =>
      have further := (⟨_, _, _, _, _, _, _, rfl, rest, e⟩ : Course w op request context _ _ _ _ r s')
      cases p with
      | intro looks calls fails transient consults logs waits =>
          refine .inr ⟨_, _, _, _, looks, calls, ?_, .passed fails transient consults logs waits further⟩
          simp

theorem Aftermath.of_permanent {outcome : Except Failure (Option op.Response)} {f : Failure}
    (after : Aftermath w op request context b outcome s h r s') (fails : Fails op outcome f)
    (permanent : f.isTransient = false) : h = [] ∧ r = .error f := by
  have hjudge := fails.judge_eq
  have hsame {g : Failure} (hg : Fails op outcome g) : g = f := by
    rw [hg.judge_eq] at hjudge
    cases hjudge
    rfl
  cases after with
  | returned succeeds =>
      rw [succeeds.judge_eq] at hjudge
      cases hjudge
  | raised fails' =>
      obtain rfl := hsame fails'
      exact ⟨rfl, rfl⟩
  | exhausted fails' transient | interrupted fails' transient | brokenOff fails' transient
  | passed fails' transient =>
      obtain rfl := hsame fails'
      rw [transient] at permanent
      cases permanent

/-- An attempt has a next one behind it only if it has passed; between the two there is one wait. -/
theorem Aftermath.next_call {outcome : Except Failure (Option op.Response)}
    (after : Aftermath w op request context b outcome s h r s') {past rest : History σ α} {m : Step σ α}
    (hm : m.event.isCall = true) (split : h = past ++ m :: rest) :
    ∃ f t between past', Fails op outcome f ∧ f.isTransient = true ∧ past = between ++ past' ∧
      between.waits.length = 1 ∧
      Course w op request context b.issued (some f) t (past' ++ m :: rest) r s' := by
  have hmem : m ∈ h := by simp [split]
  cases after with
  | returned | raised => cases hmem
  | exhausted fails transient consults | brokenOff fails transient consults =>
      obtain hc | hq := List.mem_append.mp hmem
      · exact absurd hm (consults.not_call hc)
      · simp only [List.mem_cons, List.not_mem_nil, or_false] at hq
        obtain rfl | rfl := hq <;> cases hm
  | interrupted fails transient consults =>
      obtain hc | hq := List.mem_append.mp hmem
      · exact absurd hm (consults.not_call hc)
      · simp only [List.mem_cons, List.not_mem_nil, or_false] at hq
        obtain rfl | rfl | rfl := hq <;> cases hm
  | passed fails transient consults logs waits further =>
      obtain rfl := consults.issued_eq
      obtain ⟨past', rfl, rfl⟩ := behind (p := fun m => m.event.isCall = true)
        (by
          intro y hy
          obtain hc | hq := List.mem_append.mp hy
          · exact consults.not_call hc
          · simp only [List.mem_cons, List.not_mem_nil, or_false] at hq
            obtain rfl | rfl := hq <;> simp [Event.isCall]) hm split
      refine ⟨_, _, _, past', fails, transient, rfl, ?_, further⟩
      rw [consults.waits_append]
      rfl

theorem Course.at_call (c : Course w op request context b last s h r s') {past rest : History σ α}
    {m : Step σ α} (hm : m.event.isCall = true) (split : h = past ++ m :: rest) :
    ∃ asked outcome, w.cancelled asked = (false, m.before) ∧
      w.call op request m.before = (outcome, m.after) ∧ m.event = .called op request outcome ∧
      Aftermath w op request context (Backoff.issued^[past.waits.length] b) outcome m.after rest r s' := by
  induction hn : past.length using Nat.strongRecOn generalizing b last s h past with
  | ind n ih =>
      obtain ⟨looked, -, -, rfl, -⟩ | ⟨looked, outcome, answered, tail, looks, calls, rfl, after⟩ := c.opens
      · obtain ⟨rfl, rfl, rfl⟩ | ⟨past, rfl, split₁⟩ := split_cons split
        · cases hm
        · obtain ⟨rfl, rfl, rfl⟩ | ⟨past, rfl, split₂⟩ := split_cons split₁
          · cases hm
          · simp at split₂
      · obtain ⟨rfl, rfl, rfl⟩ | ⟨past, rfl, split₁⟩ := split_cons split
        · cases hm
        · obtain ⟨rfl, rfl, rfl⟩ | ⟨past, rfl, split₂⟩ := split_cons split₁
          · exact ⟨s, outcome, looks, calls, rfl, after⟩
          · obtain ⟨f, t, between, past', -, -, rfl, hwaits, further⟩ := after.next_call hm split₂
            have hlater : (History.waits (⟨s, .asked false, looked⟩ :: ⟨looked, .called op request outcome,
                answered⟩ :: (between ++ past'))).length = past'.waits.length + 1 := by
              have hcons : History.waits (⟨s, .asked false, looked⟩ :: ⟨looked, .called op request outcome,
                answered⟩ :: (between ++ past')) = (between ++ past').waits := rfl
              rw [hcons, History.waits_append, List.length_append, hwaits, Nat.add_comm]
            rw [hlater, Function.iterate_succ_apply]
            exact ih past'.length (by rw [← hn]; simp; omega) further rfl rfl

theorem Course.returns_iff (c : Course w op request context b last s h r s') {v : op.Result} :
    r = .ok v ↔ ∃ m ∈ h, ∃ outcome, m.event = .called op request outcome ∧ Succeeds op outcome v := by
  constructor
  · rintro rfl
    obtain ⟨n, k, b', last', t, way, l, rfl, -, e⟩ := c
    cases e with
    | @returned looked s' outcome r looks calls succeeds =>
        exact ⟨⟨looked, .called op request outcome, s'⟩, by simp, outcome, rfl, succeeds⟩
  · rintro ⟨m, hm, outcome, hevent, hv⟩
    obtain ⟨past, rest, rfl⟩ := List.append_of_mem hm
    obtain ⟨asked, outcome', -, -, hevent', after⟩ := c.at_call (by rw [hevent]; rfl) rfl
    rw [hevent] at hevent'
    cases hevent'
    have hfails {f : Failure} (hf : Fails op outcome f) : False := by
      have hjudge := hf.judge_eq
      rw [hv.judge_eq] at hjudge
      cases hjudge
    cases after with
    | returned succeeds =>
        have hjudge := succeeds.judge_eq
        rw [hv.judge_eq] at hjudge
        cases hjudge
        rfl
    | raised fails | exhausted fails | interrupted fails | brokenOff fails | passed fails => exact (hfails fails).elim

end

end LedgerQuery.Fetch
