import LedgerQuery.Proofs.Fetch.Delivery
import LedgerQuery.Proofs.Fetch.Termination
import LedgerQuery.Proofs.Settings.Retry

namespace LedgerQuery.Fetch

variable {σ α : Type}

/-- The ways for a call to come back: a result, or a failure that the caller is meant to see. -/
inductive Settled (op : Operation) (context : String) : Except Failure op.Result → Prop
  | returned (v : op.Result) : Settled op context (.ok v)
  | violation (v : Violation) : Settled op context (.error (.violation v))
  | node {e : NodeError} (status : Int) (permanent : e.retriable ≠ some true) :
      Settled op context (.error (.node e (some status)))
  | exhausted {f : Failure} (transient : f.isTransient = true) :
      Settled op context (.error (.aborted .exhausted op.name context (some f)))
  | cancelled {last : Option Failure} (transient : ∀ f ∈ last, f.isTransient = true) :
      Settled op context (.error (.aborted .cancelled op.name context last))

theorem isRetriable_iff {e : NodeError} : e.isRetriable = true ↔ e.retriable = some true := by
  rw [NodeError.isRetriable, beq_iff_eq]

theorem Fails.over {op : Operation} {outcome : Http.Outcome} {f : Failure}
    (fails : Fails op ((Http.interpret op.path op.responseModel op.responseShape outcome).map some) f)
    (tame : ∀ i, outcome ≠ .crashed i) :
    (∃ v, f = .violation v) ∨
      (∃ a e, outcome = .answered a ∧ a.status ≠ 200 ∧ Http.Decodes NodeError.shape a e ∧
        f = .node e (some a.status)) ∨
      ∃ t, f = .transport t ∧ Http.MayPass op.responseShape outcome := by
  cases hi : Http.interpret op.path op.responseModel op.responseShape outcome with
  | ok response =>
      rw [hi] at fails
      cases fails with
      | refused => exact .inl ⟨_, rfl⟩
  | error g =>
      rw [hi] at fails
      cases fails with
      | raised =>
          obtain ⟨i, rfl, -⟩ | hnode | htransport := Http.interpret_error hi
          · exact absurd rfl (tame i)
          · exact .inr (.inl hnode)
          · exact .inr (.inr htransport)

theorem Fails.mayPass {op : Operation} {outcome : Http.Outcome} {f : Failure}
    (fails : Fails op ((Http.interpret op.path op.responseModel op.responseShape outcome).map some) f)
    (tame : ∀ i, outcome ≠ .crashed i) (transient : f.isTransient = true) :
    Http.MayPass op.responseShape outcome := by
  obtain ⟨v, rfl⟩ | ⟨a, e, rfl, hstatus, he, rfl⟩ | ⟨t, -, hpass⟩ := fails.over tame
  · cases transient
  · rw [Http.MayPass, if_neg hstatus]
    intro e' he'
    rw [he'.unique he]
    exact isRetriable_iff.mp transient
  · exact hpass

theorem Fails.permanent {op : Operation} {outcome : Http.Outcome} {f : Failure} (context : String)
    (fails : Fails op ((Http.interpret op.path op.responseModel op.responseShape outcome).map some) f)
    (tame : ∀ i, outcome ≠ .crashed i) (permanent : f.isTransient = false) :
    Settled op context (.error f) := by
  obtain ⟨v, rfl⟩ | ⟨a, e, -, -, -, rfl⟩ | ⟨t, rfl, -⟩ := fails.over tame
  · exact .violation v
  · refine .node a.status fun hretriable => ?_
    have htransient : e.isRetriable = true := isRetriable_iff.mpr hretriable
    exact absurd (htransient.symm.trans permanent) (by decide)
  · cases permanent

section

variable [Add α] [Sub α] [Mul α] [LT α] [DecidableLT α] {w : World σ α}
  {send : Http.Request → StateM σ Http.Outcome} {host : HostSettings} {op : Operation} {request : op.Request}
  {context : String} {b : Backoff α} {last : Option Failure} {s s' : σ} {h : History σ α}
  {r : Except Failure op.Result}

theorem Course.settled (tame : ∀ request s i, (send request s).1 ≠ .crashed i)
    (c : Course (w.over send host) op request context b last s h r s') (unbroken : h.breaksOff = false)
    (transient : ∀ f ∈ last, f.isTransient = true) : Settled op context r := by
  obtain ⟨n, k, b', last', t, way, l, rfl, ps, e⟩ := c
  have hway : way ≠ .brokenOff := by
    rw [History.breaksOff_append, e.breaksOff_eq, Bool.or_eq_false_iff] at unbroken
    exact of_decide_eq_false unbroken.2
  cases e with
  | returned => exact .returned _
  | @raised looked s' outcome f looks calls fails permanent =>
      rw [over_call] at calls
      obtain ⟨rfl, -⟩ := Prod.mk.inj calls
      exact fails.permanent context (tame _ _) permanent
  | exhausted _ _ _ transient => exact .exhausted transient
  | calledOff => exact .cancelled (ps.last_transient transient)
  | interrupted _ _ _ transient =>
      refine .cancelled ?_
      rintro f ⟨⟩
      exact transient
  | brokenOff => exact absurd rfl hway

/-- What an exchange of a call decides: whether another one may follow, and the end where none may. -/
theorem Course.decides (tame : ∀ request s i, (send request s).1 ≠ .crashed i)
    (c : Course (w.over send host) op request context b last s h r s') {past rest : History σ α}
    {m : Step σ α} (hm : m.event.isCall = true) (split : h = past ++ m :: rest) {outcome : Http.Outcome}
    (answers : (send (op.httpRequest host request) m.before).1 = outcome) :
    (rest.calls ≠ [] → Http.MayPass op.responseShape outcome) ∧
    (∀ a response v, outcome = .answered a → a.status = 200 → Http.Decodes op.responseShape a response →
      op.validate (some response) = .error v → rest = [] ∧ r = .error (.violation v)) ∧
    ∀ a e, outcome = .answered a → a.status ≠ 200 → Http.Decodes NodeError.shape a e →
      e.retriable ≠ some true → rest = [] ∧ r = .error (.node e (some a.status)) := by
  obtain ⟨asked, result, -, calls, -, after⟩ := c.at_call hm split
  rw [over_call, answers] at calls
  obtain ⟨rfl, -⟩ := Prod.mk.inj calls
  refine ⟨?_, ?_, ?_⟩
  · intro hcalls
    obtain ⟨m', hm'⟩ := List.exists_mem_of_ne_nil _ hcalls
    obtain ⟨hmem, hcall⟩ := List.mem_filter.mp hm'
    obtain ⟨past', rest', hrest⟩ := List.append_of_mem hmem
    obtain ⟨f, t, between, past'', fails, transient, -⟩ := after.next_call hcall hrest
    exact fails.mayPass (by rw [← answers]; exact tame _ _) transient
  · rintro a response v rfl hstatus hdecodes hv
    have hok : Http.interpret op.path op.responseModel op.responseShape (.answered a) = .ok response :=
      Http.interpret_eq_ok.mpr ⟨a, rfl, hstatus, hdecodes⟩
    rw [hok] at after
    exact after.of_permanent (.refused hv) rfl
  · rintro a e rfl hstatus hdecodes hretriable
    rw [Http.interpret_eq_node hstatus hdecodes] at after
    refine after.of_permanent (.raised _) ?_
    rw [Failure.isTransient, ← Bool.not_eq_true, isRetriable_iff]
    exact hretriable

end

theorem retried_ends {σ : Type} (w : World σ Number) {settings : RetrySettings} (bounded : settings.Bounded)
    (op : Operation) (request : op.Request) (s : σ) :
    ∃ r s', retried w settings op request ⟨none, none⟩ s = some (r, s') := by
  apply retried_terminates w settings op request ⟨none, none⟩ (n := settings.maxRetries.toNat)
  rw [Number.natCast_def]
  apply Number.int_le_int.mpr
  have hnonneg := bounded.maxRetries
  omega

def briefSettings : Json :=
  .object [("version", .number (.int 1)),
    ("hosts", .object [("node", .object [("base_url", .string "http://node")])])]

theorem flaky_tame (request : Http.Request) (s : Nat) (i : Incident) : (flaky request s).1 ≠ .crashed i := by
  by_cases hs : s = 0 <;> simp [flaky, hs]

def sluggishSettings : Json :=
  .object [("version", .number (.int 1)),
    ("hosts", .object [("node", .object [("base_url", .string "http://node")])]),
    ("retry", .object [("max_elapsed_seconds", .null), ("initial_interval_seconds", .number (.float 1e11)),
      ("max_interval_seconds", .number (.float 1e11))])]

end LedgerQuery.Fetch
