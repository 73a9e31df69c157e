import LedgerQuery.Fetch.Form
import LedgerQuery.Proofs.Fetch.Accounts

namespace LedgerQuery

open Fetch

variable {σ : Type}

/-- A failure of the exchange, or an error of the node that says that it may pass. -/
def Failure.MayPass (f : Failure) : Prop :=
  (∃ t, f = .transport t) ∨ ∃ e status, f = .node e status ∧ e.retriable = some true

theorem Failure.isTransient_iff {f : Failure} : f.isTransient = true ↔ f.MayPass := by
  cases f with
  | transport t => simp [isTransient, MayPass]
  | node e status => simp [isTransient, MayPass, NodeError.isRetriable]
  | _ => simp [isTransient, MayPass]

namespace Fetch

theorem raw_apply {α : Type} (w : World σ α) (op : Operation) (request : op.Request) (s : σ) :
    raw w op request s = ((w.call op request s).1.bind op.extract, (w.call op request s).2) := by
  rcases h : w.call op request s with ⟨_ | response, s'⟩ <;> simp only [raw, bind_apply, h] <;> rfl

theorem settled_of_permanent {op : Operation} {outcome : Except Failure (Option op.Response)}
    (permanent : ∀ f, outcome = .error f → ¬f.MayPass) :
    (∃ r, Succeeds op outcome r) ∨ ∃ f, Fails op outcome f ∧ f.isTransient = false := by
  obtain hr | ⟨f, hf⟩ := succeeds_or_fails op outcome
  · exact .inl hr
  · refine .inr ⟨f, hf, ?_⟩
    cases hf with
    | raised =>
        rw [← Bool.not_eq_true, Failure.isTransient_iff]
        exact permanent f rfl
    | refused => rfl

def Once (op : Operation) (request : op.Request) (outcome : Except Failure (Option op.Response))
    (h : History σ Number) : Prop :=
  ∃ s s', h.calls = [⟨s, .called op request outcome, s'⟩]

namespace Form

/-- The state in which a call that begins here first asks the node, if it gets to that. -/
def opening (w : World σ Number) : Form → σ → σ
  | raw, s | checked, s => s
  | retried _ _, s => (w.cancelled (w.now s).2).2

variable (w : World σ Number) (op : Operation) (request : op.Request)

/-- The outcome that a call which begins here first gets from the transport. -/
def Meets (form : Form) (s : σ) (outcome : Except Failure (Option op.Response)) : Prop :=
  (w.call op request (form.opening w s)).1 = outcome

/-- What a call that begins here ends with, and what it does up to then. -/
def Ends {op : Operation} (call : StateT (σ × History σ Number) Option (Except Failure op.Result)) (s : σ)
    (r : Except Failure op.Result) (h : History σ Number) : Prop :=
  ∃ s', call (s, []) = some (r, (s', h))

/-- The ways to make the calls of an operation: with a request, or with a subject that asks for it. -/
inductive Makes (w : World σ Number) :
    (op : Operation) → op.Request → (Form → StateT σ Option (Except Failure op.Result)) → Prop
  | run (op : Operation) (request : op.Request) : Makes w op request fun form => form.run w op request
  | call (op : Operation) (subject : op.Subject) : Makes w op (op.ask subject) fun form => form.call w op subject

theorem Makes.eq_run {w : World σ Number} {op : Operation} {request : op.Request}
    {calls : Form → StateT σ Option (Except Failure op.Result)} (makes : Makes w op request calls) :
    calls = fun form => form.run w op request := by
  cases makes with
  | run | call => rfl

variable {w op request} {outcome : Except Failure (Option op.Response)} {s : σ}

theorem raw_ends (meets : raw.Meets w op request s outcome) :
    ∃ s', Ends (raw.run w.observed op request) s (outcome.bind op.extract) [⟨s, .called op request outcome, s'⟩] := by
  have hcall : (w.call op request s).1 = outcome := meets
  refine ⟨(w.call op request s).2, (w.call op request s).2, ?_⟩
  simp [run, raw_apply, hcall]

theorem checked_ends (meets : checked.Meets w op request s outcome) :
    ∃ s', Ends (checked.run w.observed op request) s (judge op outcome) [⟨s, .called op request outcome, s'⟩] := by
  have hcall : (w.call op request s).1 = outcome := meets
  refine ⟨(w.call op request s).2, (w.call op request s).2, ?_⟩
  simp [run, checked_apply, hcall]

variable {settings : RetrySettings} {bounds : Bounds}

theorem retried_ends {r : Except Failure op.Result} {h : History σ Number}
    (accepted : (bounds.limits settings).error? = none)
    (course : ∃ s', Course w op request (op.describe request)
      (.begin (bounds.limits settings) (w.now s).1) none (w.now s).2 h r s') :
    Ends ((retried settings bounds).run w.observed op request) s r (⟨s, .read (w.now s).1, (w.now s).2⟩ :: h) := by
  obtain ⟨s', c⟩ := course
  exact ⟨s', (retried_observed_iff accepted).mpr ⟨_, _, h, rfl, rfl, c⟩⟩

section

variable (accepted : (bounds.limits settings).error? = none)
  (unset : (w.cancelled (w.now s).2).1 = false)
  (meets : (retried settings bounds).Meets w op request s outcome)

include accepted unset meets

theorem retried_ends_at_once (permanent : ∀ f, outcome = .error f → ¬f.MayPass) :
    ∃ h, Ends ((retried settings bounds).run w.observed op request) s (judge op outcome) h ∧
      Once op request outcome h ∧ h.waits = [] ∧ h.entries = [] := by
  have looks : w.cancelled (w.now s).2 = (false, (w.cancelled (w.now s).2).2) := Prod.ext unset rfl
  have calls : w.call op request (w.cancelled (w.now s).2).2 =
    (outcome, (w.call op request (w.cancelled (w.now s).2).2).2) := Prod.ext meets rfl
  obtain ⟨r, succeeds⟩ | ⟨f, fails, permanent⟩ := settled_of_permanent permanent
  · rw [succeeds.judge_eq]
    exact ⟨_, retried_ends accepted ⟨_, .of_ending (.returned looks calls succeeds)⟩, ⟨_, _, rfl⟩, rfl, rfl⟩
  · rw [fails.judge_eq]
    exact ⟨_, retried_ends accepted ⟨_, .of_ending (.raised looks calls fails permanent)⟩, ⟨_, _, rfl⟩, rfl, rfl⟩

theorem retried_ends_exhausted (none_left : (bounds.limits settings).maxRetries = .int 0) {f : Failure}
    (raised : outcome = .error f) (passing : f.MayPass) :
    ∃ h, Ends ((retried settings bounds).run w.observed op request) s
        (.error (.aborted .exhausted op.name (op.describe request) (some f))) h ∧
      Once op request outcome h := by
  have looks : w.cancelled (w.now s).2 = (false, (w.cancelled (w.now s).2).2) := Prod.ext unset rfl
  have calls : w.call op request (w.cancelled (w.now s).2).2 =
    (outcome, (w.call op request (w.cancelled (w.now s).2).2).2) := Prod.ext meets rfl
  have spent : (Backoff.begin (bounds.limits settings) (w.now s).1).spent = true := by
    refine decide_eq_true ?_
    change (bounds.limits settings).maxRetries ≤ .int 0
    rw [none_left]
    exact Number.int_le_int.mpr le_rfl
  have fails : Fails op outcome f := raised ▸ .raised f
  exact ⟨_, retried_ends accepted ⟨_, .of_ending (.exhausted looks calls fails
    (Failure.isTransient_iff.mpr passing) (.spent spent) rfl rfl)⟩, _, _, rfl⟩

end

end Form

/-- How the results of the three forms on one outcome go together, where no retries are allowed. -/
structure Agree (op : Operation) (request : op.Request) (outcome : Except Failure (Option op.Response))
    (raw checked retried : Except Failure op.Result) : Prop where
  returns : ∀ v, checked = .ok v → raw = .ok v ∧ retried = .ok v
  raises : ∀ f, outcome = .error f → raw = .error f ∧ checked = .error f
  raises_permanent : ∀ f, outcome = .error f → ¬f.MayPass → retried = .error f
  exhausts : ∀ f, outcome = .error f → f.MayPass →
    retried = .error (.aborted .exhausted op.name (op.describe request) (some f))
  refuses : ∀ response v, outcome = .ok response → op.validate response = .error v →
    checked = .error (.violation v) ∧ retried = .error (.violation v) ∧ raw = op.extract response
  extracts : ∀ response, outcome = .ok (some response) → ∃ v, raw = .ok v

theorem extract_some {op : Operation} (response : op.Response) : ∃ v, op.extract (some response) = .ok v := by
  cases op <;> exact ⟨_, rfl⟩

section

variable {op : Operation} {request : op.Request} {outcome : Except Failure (Option op.Response)}

theorem bind_of_succeeds {r : op.Result} (succeeds : Succeeds op outcome r) :
    outcome.bind op.extract = .ok r := by
  cases succeeds with
  | intro valid extracts => exact extracts

theorem judge_of_refused {response : Option op.Response} {v : Violation}
    (refused : op.validate response = .error v) : judge op (.ok response) = .error (.violation v) :=
  (Fails.refused refused).judge_eq

theorem Agree.of_permanent (permanent : ∀ f, outcome = .error f → ¬f.MayPass) :
    Agree op request outcome (outcome.bind op.extract) (judge op outcome) (judge op outcome) where
  returns v hv := ⟨bind_of_succeeds (succeeds_iff.mpr hv), hv⟩
  raises f hf := by
    rw [hf]
    exact ⟨rfl, rfl⟩
  raises_permanent f hf _ := by
    rw [hf]
    rfl
  exhausts f hf passing := absurd passing (permanent f hf)
  refuses response v hresponse refused := by
    rw [hresponse, judge_of_refused refused]
    exact ⟨rfl, rfl, rfl⟩
  extracts response hresponse := by
    rw [hresponse]
    exact extract_some response

theorem Agree.of_passing {f : Failure} (raised : outcome = .error f) (passing : f.MayPass) :
    Agree op request outcome (outcome.bind op.extract) (judge op outcome)
      (.error (.aborted .exhausted op.name (op.describe request) (some f))) := by
  subst raised
  exact {
    returns := nofun
    raises := by
      rintro g ⟨⟩
      exact ⟨rfl, rfl⟩
    raises_permanent := by
      rintro g ⟨⟩ permanent
      exact absurd passing permanent
    exhausts := by
      rintro g ⟨⟩ -
      rfl
    refuses := nofun
    extracts := nofun }

end

/-- However the calls are made, and begun anywhere, on one outcome of the transport each form asks the node once.
Their results agree where no retries are allowed; and whatever the bounds, a retried call is just the checked one
unless the outcome is a failure that may pass. -/
theorem forms_agree (w : World σ Number) (settings : RetrySettings) (bounds : Bounds) (op : Operation)
    (request : op.Request) {calls : Form → StateT (σ × History σ Number) Option (Except Failure op.Result)}
    (makes : Form.Makes w.observed op request calls) (outcome : Except Failure (Option op.Response)) (u c s : σ)
    (accepted : (bounds.limits settings).error? = none) (unset : (w.cancelled (w.now s).2).1 = false)
    (raw : Form.raw.Meets w op request u outcome) (checked : Form.checked.Meets w op request c outcome)
    (retried : (Form.retried settings bounds).Meets w op request s outcome) :
    ∃ x y hx hy, Form.Ends (calls .raw) u x hx ∧ Once op request outcome hx ∧
      Form.Ends (calls .checked) c y hy ∧ Once op request outcome hy ∧
      ((bounds.limits settings).maxRetries = .int 0 →
        ∃ z hz, Form.Ends (calls (.retried settings bounds)) s z hz ∧ Once op request outcome hz ∧
          Agree op request outcome x y z) ∧
      ((∀ f, outcome = .error f → ¬f.MayPass) →
        ∃ hz, Form.Ends (calls (.retried settings bounds)) s y hz ∧ Once op request outcome hz ∧
          hz.waits = [] ∧ hz.entries = []) := by
  obtain rfl := makes.eq_run
  obtain ⟨u', hx⟩ := Form.raw_ends raw
  obtain ⟨c', hy⟩ := Form.checked_ends checked
  refine ⟨_, _, _, _, hx, ⟨u, u', rfl⟩, hy, ⟨c, c', rfl⟩, fun none_left => ?_,
    Form.retried_ends_at_once accepted unset retried⟩
  by_cases hpassing : ∃ f, outcome = .error f ∧ f.MayPass
  · obtain ⟨f, raised, passing⟩ := hpassing
    obtain ⟨hz, ends, once⟩ := Form.retried_ends_exhausted accepted unset retried none_left raised passing
    exact ⟨_, hz, ends, once, .of_passing raised passing⟩
  · have permanent : ∀ f, outcome = .error f → ¬f.MayPass := fun f raised passing =>
      hpassing ⟨f, raised, passing⟩
    obtain ⟨hz, ends, once, -⟩ := Form.retried_ends_at_once accepted unset retried permanent
    exact ⟨_, hz, ends, once, .of_permanent permanent⟩

theorem hopeless_forms_agree :
    let f : Failure := .transport ⟨some 503, .unstated⟩
    let form : Form := .retried .default ⟨none, some (.int 0)⟩
    ∃ hx hy hz, Form.Ends (Form.raw.call hopeless.observed .networkList none) () (.error f) hx ∧
      Form.Ends (Form.checked.call hopeless.observed .networkList none) () (.error f) hy ∧
      Form.Ends (form.call hopeless.observed .networkList none) ()
        (.error (.aborted .exhausted "network_list" "node" (some f))) hz ∧
      hx.calls.length = 1 ∧ hy.calls.length = 1 ∧ hz.calls.length = 1 := by
  intro f form
  have accepted : (Bounds.limits ⟨none, some (.int 0)⟩ .default).error? = none :=
    Option.isNone_iff_eq_none.mp (by decide +kernel)
  obtain ⟨x, y, hx, hy, raw, ⟨u, u', onceRaw⟩, checked, ⟨c, c', onceChecked⟩, exhausts, -⟩ :=
    forms_agree hopeless .default ⟨none, some (.int 0)⟩ .networkList ⟨none⟩ (.call .networkList none) (.error f) ()
      () () accepted rfl rfl rfl rfl
  obtain ⟨z, hz, retried, ⟨s, s', onceRetried⟩, agree⟩ := exhausts rfl
  obtain ⟨rfl, rfl⟩ := agree.raises f rfl
  obtain rfl := agree.exhausts f rfl (.inl ⟨_, rfl⟩)
  refine ⟨hx, hy, hz, raw, checked, retried, ?_, ?_, ?_⟩
  · rw [onceRaw, List.length_singleton]
  · rw [onceChecked, List.length_singleton]
  · rw [onceRetried, List.length_singleton]

end Fetch

end LedgerQuery
