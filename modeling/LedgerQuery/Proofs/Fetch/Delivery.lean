import LedgerQuery.Fetch.Transport
import LedgerQuery.Proofs.Conformance.Rules
import LedgerQuery.Proofs.Fetch.Reference
import LedgerQuery.Proofs.Fetch.Aftermath
import LedgerQuery.Proofs.Http.Exchange

namespace LedgerQuery

variable {σ α : Type}

def World.over (w : World σ α) (send : Http.Request → StateM σ Http.Outcome) (host : HostSettings) : World σ α :=
  { w with call := Fetch.callOver send host }

def Operation.httpRequest (op : Operation) (host : HostSettings) (request : op.Request) : Http.Request :=
  Http.request host op.path (op.requestShape.display request).wire

/-- An answer of status 200 that denotes a record by the rules, of which the caller gets `v`. -/
def Operation.Delivers (op : Operation) (outcome : Http.Outcome) (v : op.Result) : Prop :=
  ∃ a response, outcome = .answered a ∧ a.status = 200 ∧ Http.Decodes op.responseShape a response ∧
    op.Conforms response ∧ op.extract (some response) = .ok v

namespace Fetch

variable (w : World σ α) (send : Http.Request → StateM σ Http.Outcome) (host : HostSettings)
  (op : Operation) (request : op.Request)

theorem over_call (s : σ) : (w.over send host).call op request s =
    ((Http.interpret op.path op.responseModel op.responseShape (send (op.httpRequest host request) s).1).map some,
      (send (op.httpRequest host request) s).2) := rfl

variable {op} in
theorem succeeds_iff_delivers {outcome : Http.Outcome} {v : op.Result} :
    Succeeds op ((Http.interpret op.path op.responseModel op.responseShape outcome).map some) v ↔
      op.Delivers outcome v := by
  constructor
  · intro h
    cases hi : Http.interpret op.path op.responseModel op.responseShape outcome with
    | error f =>
        rw [hi] at h
        cases h
    | ok response =>
        rw [hi] at h
        cases h with
        | intro valid extracts =>
            obtain ⟨a, ha, hstatus, hdecodes⟩ := Http.interpret_eq_ok.mp hi
            exact ⟨a, response, ha, hstatus, hdecodes, validate_eq_ok.mp valid, extracts⟩
  · rintro ⟨a, response, ha, hstatus, hdecodes, hconforms, hextract⟩
    rw [Http.interpret_eq_ok.mpr ⟨a, ha, hstatus, hdecodes⟩]
    exact .intro (validate_eq_ok.mpr hconforms) hextract

theorem checked_over_eq_ok (s : σ) (v : op.Result) :
    (checked (w.over send host) op request s).1 = .ok v ↔
      op.Delivers (send (op.httpRequest host request) s).1 v := by
  rw [checked_apply, over_call, ← succeeds_iff, succeeds_iff_delivers]

theorem Course.exchange [Add α] [Sub α] [Mul α] [LT α] [DecidableLT α] {context : String} {b : Backoff α}
    {last : Option Failure} {s s' : σ} {h : History σ α} {r : Except Failure op.Result}
    (c : Course (w.over send host) op request context b last s h r s') {m : Step σ α} (hm : m ∈ h)
    (hcall : m.event.isCall = true) :
    m.event = .called op request ((Http.interpret op.path op.responseModel op.responseShape
      (send (op.httpRequest host request) m.before).1).map some) := by
  obtain ⟨past, rest, rfl⟩ := List.append_of_mem hm
  obtain ⟨asked, outcome, -, calls, hevent, -⟩ := c.at_call hcall rfl
  rw [over_call] at calls
  rw [hevent, ← (Prod.mk.inj calls).1]

theorem Course.over_returns_iff [Add α] [Sub α] [Mul α] [LT α] [DecidableLT α] {context : String}
    {b : Backoff α} {last : Option Failure} {s s' : σ} {h : History σ α} {r : Except Failure op.Result}
    (c : Course (w.over send host) op request context b last s h r s') (v : op.Result) :
    r = .ok v ↔ ∃ m ∈ h.calls, op.Delivers (send (op.httpRequest host request) m.before).1 v := by
  rw [c.returns_iff]
  constructor
  · rintro ⟨m, hm, outcome, hevent, hv⟩
    have hcall : m.event.isCall = true := by rw [hevent]; rfl
    have hexchange := c.exchange w send host op request hm hcall
    rw [hevent] at hexchange
    cases hexchange
    exact ⟨m, List.mem_filter.mpr ⟨hm, hcall⟩, succeeds_iff_delivers.mp hv⟩
  · rintro ⟨m, hm, hv⟩
    obtain ⟨hm, hcall⟩ := List.mem_filter.mp hm
    exact ⟨m, hm, _, c.exchange w send host op request hm hcall, succeeds_iff_delivers.mpr hv⟩

/-- The checked call returns what a delivering answer says, and nothing else; and a retried call returns
what one of its exchanges delivers. -/
theorem returns_iff_delivers {σ : Type} (w : World σ Number) (send : Http.Request → StateM σ Http.Outcome)
    (host : HostSettings) (op : Operation) (request : op.Request) (s : σ) (v : op.Result) :
    ((checked (w.over send host) op request s).1 = .ok v ↔
      op.Delivers (send (op.httpRequest host request) s).1 v) ∧
    ∀ settings bounds r s' history,
      retried (w.over send host).observed settings op request bounds (s, []) = some (r, (s', history)) →
      (r = .ok v ↔ ∃ m ∈ history.calls, op.Delivers (send (op.httpRequest host request) m.before).1 v) := by
  refine ⟨checked_over_eq_ok w send host op request s v, ?_⟩
  intro settings bounds r s' history run
  cases accepted : (bounds.limits settings).error? with
  | some e =>
      simp only [retried, accepted] at run
      cases run
      simp [History.calls]
  | none =>
      obtain ⟨start, t, h, -, rfl, c⟩ := (retried_observed_iff accepted).mp run
      exact c.over_returns_iff w send host op request v

def localHost : HostSettings := ⟨"http://node", [], .default⟩

def noNetworks : Http.Answer :=
  ⟨200, [("Content-Type", "application/json; charset=utf-8")], "\x7b\"network_identifiers\": []\x7d"⟩

/-- A node that cannot be reached at first; the state counts the exchanges. -/
def flaky : Http.Request → StateM Nat Http.Outcome := fun _ n =>
  (if n = 0 then .failed ⟨"ConnectionError", "connection refused"⟩ else .answered noNetworks, n + 1)

theorem flaky_run : ∃ history,
    retried (recovering.over flaky localHost).observed .default .networkList ⟨none⟩ ⟨none, none⟩ (0, []) =
      some (.ok [], (2, history)) ∧ history.breaksOff = false := by
  have accepted := RetrySettings.default_bounded.limits_accepted
  have decodes : Http.Decodes NetworkListResponse.shape noNetworks ⟨[]⟩ :=
    ⟨by decide +kernel, .object [("network_identifiers", .array [])], by cbv, rfl⟩
  have delivers : Operation.networkList.Delivers (.answered noNetworks) [] :=
    ⟨_, _, rfl, rfl, decodes, ⟨List.forall_mem_nil _, .nil⟩, rfl⟩
  let w : World Nat Number := recovering.over flaky localHost
  let b : Backoff Number := .begin (Bounds.limits ⟨none, none⟩ .default) (.int 0)
  let f : Failure :=
    .transport ⟨none, .request "/network/list" ⟨"ConnectionError", "connection refused"⟩⟩
  have fails : Passage w .networkList ⟨none⟩ "node" b 0 f _ b.issued 1 :=
    .intro rfl rfl (.raised _) rfl (consults_default rfl rfl) rfl rfl
  have returns : Ending w .networkList ⟨none⟩ "node" b.issued (some f) 1 .returned _ (.ok []) 2 :=
    .returned rfl rfl (succeeds_iff_delivers.mpr delivers)
  have course : Course w .networkList ⟨none⟩ "node" b none 0 _ (.ok []) 2 :=
    .of_passage fails (.of_ending returns)
  exact ⟨_, (retried_observed_iff accepted).mpr ⟨_, _, _, rfl, (List.nil_append _).symm, course⟩, rfl⟩

theorem flaky_delivers : ∃ s' history,
    retried (recovering.over flaky localHost).observed .default .networkList ⟨none⟩ ⟨none, none⟩ (0, []) =
      some (.ok [], (s', history)) ∧
    ∃ m ∈ history.calls,
      Operation.networkList.Delivers (flaky (Operation.networkList.httpRequest localHost ⟨none⟩) m.before).1
        [] := by
  obtain ⟨history, run, -⟩ := flaky_run
  obtain ⟨-, iff⟩ := returns_iff_delivers recovering flaky localHost .networkList ⟨none⟩ 0 []
  exact ⟨2, history, run, (iff _ _ _ _ _ run).mp rfl⟩

end Fetch

end LedgerQuery
