import LedgerQuery.Proofs.Fetch.Aftermath
import LedgerQuery.Proofs.Settings.Retry
import Mathlib.Logic.ExistsUnique

namespace LedgerQuery.Fetch

variable {σ : Type}

section

variable {α : Type} [Add α] [Sub α] [Mul α] [LT α] [DecidableLT α] {w : World σ α} {op : Operation}
  {request : op.Request} {context : String}

/-- The way in which a call has ended, by the last step of its history. -/
def Way.of (h : History σ α) : Way :=
  match h.getLast? with
  | some ⟨_, .called op _ outcome, _⟩ =>
    match judge op outcome with
    | .ok _ => .returned
    | .error _ => .raised
  | some ⟨_, .logged (.gaveUp _ _ _ _ _), _⟩ => .exhausted
  | some ⟨_, .waited _ (.error _), _⟩ => .brokenOff
  | _ => .cancelled

theorem Ending.way_eq {b : Backoff α} {last : Option Failure} {s s' : σ} {way : Way} {h : History σ α}
    {r : Except Failure op.Result} (e : Ending w op request context b last s way h r s') :
    way = Way.of h := by
  cases e with
  | returned looks calls succeeds => simp [Way.of, succeeds.judge_eq]
  | raised looks calls fails permanent => simp [Way.of, fails.judge_eq]
  | calledOff => simp [Way.of]
  | exhausted | interrupted | brokenOff => simp [Way.of, List.getLast?_cons, List.getLast?_append]

section

variable {b b' : Backoff α} {last last' : Option Failure} {s s' : σ} {h : History σ α}

theorem Consults.breaksOff_after {looked answered consulted : σ} {outcome : Except Failure (Option op.Response)}
    {consultation : History σ α} {answer : Option α} (c : Consults w b answered consultation answer b' consulted) :
    History.breaksOff ([⟨s, .asked false, looked⟩, ⟨looked, .called op request outcome, answered⟩] ++ consultation) =
      false := by
  rw [History.breaksOff_append, c.breaksOff_eq]
  rfl

theorem Passage.breaksOff_eq {f : Failure} (p : Passage w op request context b s f h b' s') :
    h.breaksOff = false := by
  cases p with
  | intro _ _ _ _ consults =>
      rw [History.breaksOff_append, consults.breaksOff_after]
      rfl

theorem Passages.breaksOff_eq {n : Nat} (ps : Passages w op request context n b last s h b' last' s') :
    h.breaksOff = false := by
  induction ps with
  | none => rfl
  | more p _ ih => rw [History.breaksOff_append, p.breaksOff_eq, ih, Bool.or_self]

theorem Ending.breaksOff_eq {way : Way} {r : Except Failure op.Result}
    (e : Ending w op request context b last s way h r s') : h.breaksOff = decide (way = .brokenOff) := by
  cases e with
  | returned | raised | calledOff => rfl
  | exhausted _ _ _ _ consults | interrupted _ _ _ _ consults | brokenOff _ _ _ _ consults =>
      rw [History.breaksOff_append, consults.breaksOff_after]
      rfl

end

/-- Two courses from one state end in the same way: by induction on the passages, which rounds decide. -/
theorem Passages.way_unique {n n' : Nat} {b b₁ b₂ : Backoff α} {last last₁ last₂ : Option Failure}
    {s t₁ t₂ s₁ s₂ : σ} {k₁ k₂ l₁ l₂ : History σ α} {way₁ way₂ : Way} {r₁ r₂ : Except Failure op.Result}
    (ps₁ : Passages w op request context n b last s k₁ b₁ last₁ t₁)
    (e₁ : Ending w op request context b₁ last₁ t₁ way₁ l₁ r₁ s₁)
    (ps₂ : Passages w op request context n' b last s k₂ b₂ last₂ t₂)
    (e₂ : Ending w op request context b₂ last₂ t₂ way₂ l₂ r₂ s₂) : way₁ = way₂ := by
  induction ps₁ generalizing n' k₂ with
  | none b last s =>
      cases ps₂ with
      | none =>
          have hround := (e₁.round_observed []).symm.trans (e₂.round_observed [])
          simp only [List.nil_append] at hround
          cases hround
          rw [e₁.way_eq, e₂.way_eq]
      | more p _ =>
          have hround := e₁.round_eq.symm.trans p.round_eq
          cases hround
  | @more n b b' b'' last last' s t s' f h k p _ ih =>
      cases ps₂ with
      | none =>
          have hround := e₂.round_eq.symm.trans p.round_eq
          cases hround
      | more p' rest =>
          have hround : round w op request context b last s = (.again b' f, t) := p.round_eq
          rw [p'.round_eq] at hround
          cases hround
          exact ih e₁ rest

/-- A wait that fails is the last thing that a call does, and its failure what the call ends with. -/
theorem Course.breaks_off {b : Backoff α} {last : Option Failure} {s s' : σ} {h past rest : History σ α}
    {r : Except Failure op.Result} {m : Step σ α} (c : Course w op request context b last s h r s')
    (split : h = past ++ m :: rest) {d : α} {i : Incident} (breaks : m.event = .waited d (.error i)) :
    rest = [] ∧ r = .error (.incident i) := by
  obtain ⟨n, k, b', last', t, way, l, rfl, ps, e⟩ := c
  have hm : m.event.breaksOff = true := by rw [breaks]; rfl
  have hfirst {h : History σ α} (hh : h.breaksOff = false) : ∀ y ∈ h, ¬y.event.breaksOff = true :=
    List.any_eq_false.mp hh
  obtain ⟨past, rfl, rfl⟩ := behind (hfirst ps.breaksOff_eq) hm split
  have hway : way = .brokenOff := by
    have hbreaks := e.breaksOff_eq
    rw [History.breaksOff, List.any_append, List.any_cons, hm, Bool.true_or, Bool.or_true] at hbreaks
    exact of_decide_eq_true hbreaks.symm
  subst hway
  generalize hl : past ++ m :: rest = l at e
  cases e with
  | brokenOff _ _ _ _ consults =>
      obtain ⟨past, rfl, split₁⟩ := behind (hfirst consults.breaksOff_after) hm hl.symm
      obtain ⟨rfl, rfl, rfl⟩ | ⟨past, rfl, split₂⟩ := split_cons split₁
      · cases breaks
      · obtain ⟨rfl, rfl, rfl⟩ | ⟨past, rfl, split₃⟩ := split_cons split₂
        · cases breaks
          exact ⟨rfl, rfl⟩
        · simp at split₃

theorem within_observed_iff {limits : Limits α} {s s' : σ} {r : Except Failure op.Result}
    {past history : History σ α} :
    within w.observed op request limits (s, past) = some (r, (s', history)) ↔
      ∃ start t h, w.now s = (start, t) ∧ history = past ++ ⟨s, .read start, t⟩ :: h ∧
        Course w op request (op.describe request) (.begin limits start) none t h r s' := by
  rcases hstart : w.now s with ⟨start, t⟩
  rw [within, World.observed_now, hstart]
  constructor
  · intro run
    obtain ⟨h, hh, c⟩ := course_of_attempts_observed run
    exact ⟨start, t, h, rfl, by rw [hh, List.append_assoc, List.singleton_append], c⟩
  · rintro ⟨_, _, h, hw, rfl, c⟩
    cases hw
    exact (c.attempts_observed _).trans (by rw [List.append_assoc, List.singleton_append])

end

section

variable {w : World σ Number} {settings : RetrySettings} {op : Operation} {request : op.Request}
  {bounds : Bounds} {s s' : σ} {r : Except Failure op.Result}

theorem retried_observed_iff (accepted : (bounds.limits settings).error? = none)
    {past history : History σ Number} :
    retried w.observed settings op request bounds (s, past) = some (r, (s', history)) ↔
      ∃ start t h, w.now s = (start, t) ∧ history = past ++ ⟨s, .read start, t⟩ :: h ∧
        Course w op request (op.describe request) (.begin (bounds.limits settings) start) none t h r s' := by
  simp only [retried, accepted]
  exact within_observed_iff

theorem retried_iff_observed (accepted : (bounds.limits settings).error? = none) :
    retried w settings op request bounds s = some (r, s') ↔
      ∃ history, retried w.observed settings op request bounds (s, []) = some (r, (s', history)) := by
  rcases hstart : w.now s with ⟨start, t⟩
  rw [retried_apply w op request accepted, hstart]
  constructor
  · intro run
    obtain ⟨h, c⟩ := course_of_attempts run
    exact ⟨_, (retried_observed_iff accepted).mpr ⟨start, t, h, hstart, rfl, c⟩⟩
  · rintro ⟨history, observed⟩
    obtain ⟨_, _, h, hw, -, c⟩ := (retried_observed_iff accepted).mp observed
    rw [hstart] at hw
    cases hw
    exact c.attempts_eq

end

/-- What may be seen of a retried call that ends in this way: a look at the clock, from which the policy
begins, attempts that fail for now, and the end. -/
def Reference (w : World σ Number) (settings : RetrySettings) (op : Operation) (request : op.Request)
    (bounds : Bounds) (s : σ) (way : Way) (history : History σ Number) (r : Except Failure op.Result)
    (s' : σ) : Prop :=
  ∃ start t n passed policy last u ended, w.now s = (start, t) ∧
    history = ⟨s, .read start, t⟩ :: (passed ++ ended) ∧
    Passages w op request (op.describe request) n (.begin (bounds.limits settings) start) none t passed
      policy last u ∧
    Ending w op request (op.describe request) policy last u way ended r s'

theorem Reference.breaksOff_iff {w : World σ Number} {settings : RetrySettings} {op : Operation}
    {request : op.Request} {bounds : Bounds} {s s' : σ} {way : Way} {history : History σ Number}
    {r : Except Failure op.Result} (ref : Reference w settings op request bounds s way history r s') :
    way = .brokenOff ↔ history.breaksOff = true := by
  obtain ⟨start, t, n, passed, policy, last, u, ended, -, rfl, ps, e⟩ := ref
  have hbreaks : History.breaksOff (⟨s, .read start, t⟩ :: (passed ++ ended)) =
    History.breaksOff (passed ++ ended) := rfl
  rw [hbreaks, History.breaksOff_append, ps.breaksOff_eq, e.breaksOff_eq, Bool.false_or, decide_eq_true_iff]

theorem consults_default {w : World σ Number} {s : σ} (draws : w.draw s = (.float 0.5, s))
    (reads : w.now s = (.int 0, s)) :
    let b : Backoff Number := .begin (Bounds.limits ⟨none, none⟩ .default) (.int 0)
    Consults w b s [⟨s, .drew (.float 0.5), s⟩, ⟨s, .read (.int 0), s⟩] (some (b.delay (.float 0.5))) b.issued s :=
  .fits (by decide +kernel) draws rfl reads (by decide +kernel)

/-- A world whose first attempt fails, while later ones find no networks, and in which nobody cancels; the state counts
the attempts. -/
def recovering : World Nat Number where
  call
    | .networkList, _ => fun n =>
      (if n = 0 then .error (.transport ⟨some 503, .unstated⟩) else .ok (some ⟨[]⟩), n + 1)
    | _, _ => fun n => (.ok none, n + 1)
  cancelled := pure false
  wait d := pure (World.undisturbed d)
  now := pure (.int 0)
  draw := pure (.float 0.5)
  log _ := pure ()

theorem recovering_waits {d : Number} (short : World.isOverlong d = false) (n : Nat) :
    recovering.wait d n = (.ok false, n) := Prod.ext (World.undisturbed_of_short short) rfl

def sluggish : RetrySettings := ⟨none, 5, 1e11, 1.5, 0.5, 1e11⟩

theorem sluggish_accepted : (Bounds.limits ⟨none, none⟩ sluggish).error? = none :=
  Option.isNone_iff_eq_none.mp (by decide +kernel)

theorem sluggish_run (call : (op : Operation) → op.Request → StateM Nat (Except Failure (Option op.Response)))
    (op : Operation) (request : op.Request) {f : Failure} (calls : call op request 0 = (.error f, 1))
    (transient : f.isTransient = true) :
    ∃ history : History Nat Number,
      retried { recovering with call := call }.observed sluggish op request ⟨none, none⟩ (0, []) =
          some (.error (.incident World.overlong), (1, history)) ∧
        history.calls.length = 1 ∧ history.breaksOff = true := by
  let b : Backoff Number := .begin (Bounds.limits ⟨none, none⟩ sluggish) (.int 0)
  have overlong : World.isOverlong (b.delay (.float 0.5)) = true := by decide +kernel
  have ends : Ending { recovering with call := call } op request (op.describe request) b none 0 .brokenOff _
      (.error (.incident World.overlong)) 1 :=
    .brokenOff rfl calls (.raised f) transient (.unbounded (by decide +kernel) rfl rfl) rfl
      (Prod.ext (World.undisturbed_of_overlong overlong) rfl)
  have run := (retried_observed_iff sluggish_accepted).mpr
    ⟨_, _, _, rfl, (List.nil_append _).symm, .of_ending ends⟩
  exact ⟨_, run, rfl, rfl⟩

end LedgerQuery.Fetch
