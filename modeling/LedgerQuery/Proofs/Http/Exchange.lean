import LedgerQuery.Http.Exchange

namespace LedgerQuery.Http

variable {ρ : Type}

/-- The answer is JSON by its media type and in fact, and denotes the record. -/
def Decodes (shape : Shape ρ) (a : Answer) (r : ρ) : Prop :=
  mediaType (contentType a) = jsonMediaType ∧ ∃ j, Json.read? a.body = some j ∧ shape.read j = .ok r

/-- Whether another exchange may go better: there was no answer, it denotes nothing, or it denotes an error
that the node takes to be transient. -/
def MayPass (shape : Shape ρ) : Outcome → Prop
  | .failed _ => True
  | .crashed _ => False
  | .answered a =>
    if a.status = 200 then ∀ r, ¬Decodes shape a r
    else ∀ e, Decodes NodeError.shape a e → e.retriable = some true

section

variable {path model : String} {shape : Shape ρ} {a : Answer} {r : ρ}

theorem decode_eq_ok : decode path model shape a = .ok r ↔ Decodes shape a r := by
  by_cases hmedia : mediaType (contentType a) = jsonMediaType
  · cases hbody : Json.read? a.body with
    | none => simp [decode, Decodes, hmedia, hbody]
    | some j =>
        cases hread : shape.read j with
        | ok q => simp [decode, Decodes, hmedia, hbody, hread]
        | error fs => simp [decode, Decodes, hmedia, hbody, hread]
  · simp [decode, Decodes, hmedia]

theorem decode_cases (path model : String) (shape : Shape ρ) (a : Answer) :
    (∃ r, Decodes shape a r ∧ decode path model shape a = .ok r) ∨
      ∃ t, (∀ r, ¬Decodes shape a r) ∧ decode path model shape a = .error t := by
  cases h : decode path model shape a with
  | ok r => exact .inl ⟨r, decode_eq_ok.mp h, rfl⟩
  | error t =>
      refine .inr ⟨t, fun r hr => ?_, rfl⟩
      rw [decode_eq_ok.mpr hr] at h
      cases h

theorem Decodes.unique {q : ρ} (hr : Decodes shape a r) (hq : Decodes shape a q) : r = q := by
  have h : (decode "" "" shape a) = .ok r := decode_eq_ok.mpr hr
  rw [decode_eq_ok.mpr hq] at h
  cases h
  rfl

theorem interpret_eq_ok {o : Outcome} :
    interpret path model shape o = .ok r ↔ ∃ a, o = .answered a ∧ a.status = 200 ∧ Decodes shape a r := by
  cases o with
  | failed i => simp [interpret]
  | crashed i => simp [interpret]
  | answered a =>
      by_cases hstatus : a.status = 200
      · obtain ⟨q, hq, hdecode⟩ | ⟨t, hnone, hdecode⟩ := decode_cases path model shape a
        · rw [interpret, if_pos hstatus, hdecode]
          constructor
          · rintro ⟨⟩
            exact ⟨a, rfl, hstatus, hq⟩
          · rintro ⟨_, ⟨⟩, -, hr⟩
            rw [hq.unique hr]
            rfl
        · rw [interpret, if_pos hstatus, hdecode]
          constructor
          · rintro ⟨⟩
          · rintro ⟨_, ⟨⟩, -, hr⟩
            exact absurd hr (hnone r)
      · constructor
        · intro h
          rw [interpret, if_neg hstatus] at h
          cases hdecode : decode path "Error" NodeError.shape a with
          | ok e => simp [hdecode] at h
          | error t => simp [hdecode] at h
        · rintro ⟨_, ⟨⟩, hok, -⟩
          exact absurd hok hstatus

theorem interpret_eq_node {e : NodeError} (hstatus : a.status ≠ 200) (he : Decodes NodeError.shape a e) :
    interpret path model shape (.answered a) = .error (.node e (some a.status)) := by
  rw [interpret, if_neg hstatus, decode_eq_ok.mpr he]

theorem interpret_error {o : Outcome} {f : Failure} (h : interpret path model shape o = .error f) :
    (∃ i, o = .crashed i ∧ f = .incident i) ∨
      (∃ a e, o = .answered a ∧ a.status ≠ 200 ∧ Decodes NodeError.shape a e ∧ f = .node e (some a.status)) ∨
      ∃ t, f = .transport t ∧ MayPass shape o := by
  cases o with
  | failed i =>
      cases h
      exact .inr (.inr ⟨_, rfl, trivial⟩)
  | crashed i =>
      cases h
      exact .inl ⟨i, rfl, rfl⟩
  | answered a =>
      by_cases hstatus : a.status = 200
      · obtain ⟨q, hq, hdecode⟩ | ⟨t, hnone, hdecode⟩ := decode_cases path model shape a
        · rw [interpret, if_pos hstatus, hdecode] at h
          cases h
        · rw [interpret, if_pos hstatus, hdecode] at h
          cases h
          exact .inr (.inr ⟨t, rfl, by simpa [MayPass, hstatus] using hnone⟩)
      · obtain ⟨e, he, hdecode⟩ | ⟨t, hnone, hdecode⟩ := decode_cases path "Error" NodeError.shape a
        · rw [interpret, if_neg hstatus, hdecode] at h
          cases h
          exact .inr (.inl ⟨a, e, rfl, hstatus, he, rfl⟩)
        · rw [interpret, if_neg hstatus, hdecode] at h
          cases h
          refine .inr (.inr ⟨t, rfl, ?_⟩)
          rw [MayPass, if_neg hstatus]
          exact fun e he => absurd he (hnone e)

end

end LedgerQuery.Http
