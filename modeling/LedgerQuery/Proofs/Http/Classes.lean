import LedgerQuery.Proofs.Http.Exchange

namespace LedgerQuery.Http

variable {σ ρ α : Type}

inductive Unreadable (shape : Shape ρ) (body : String) : Undecodable → Prop
  | notJson (malformed : Json.read? body = none) : Unreadable shape body .notJson
  | faults {j : Json} {fs : List Fault} (json : Json.read? body = some j) (read : shape.read j = .error fs) :
      Unreadable shape body (.faults fs)

inductive Class
  | unreached
  | crashed
  | otherMedia
  | undecodable
  | decoded
  | refused
deriving DecidableEq

def Class.ofResult : Except Failure ρ → Class
  | .ok _ => decoded
  | .error (.node _ _) => refused
  | .error (.incident _) => crashed
  | .error (.transport ⟨_, .mediaType _ _⟩) => otherMedia
  | .error (.transport ⟨_, .undecodable _ _ _⟩) => undecodable
  | .error _ => unreached

/-- The class of an outcome, and what the caller gets for it. -/
inductive Classified (path model : String) (shape : Shape ρ) : Class → Outcome → Except Failure ρ → Prop
  | unreached (i : Incident) :
      Classified path model shape .unreached (.failed i) (.error (.transport ⟨none, .request path i⟩))
  | crashed (i : Incident) : Classified path model shape .crashed (.crashed i) (.error (.incident i))
  | otherMedia {a : Answer} (media : mediaType (contentType a) ≠ jsonMediaType) :
      Classified path model shape .otherMedia (.answered a)
        (.error (.transport ⟨some a.status, .mediaType path (contentType a)⟩))
  | undecodable {a : Answer} {why : Undecodable} (media : mediaType (contentType a) = jsonMediaType)
      (status : a.status = 200) (body : Unreadable shape a.body why) :
      Classified path model shape .undecodable (.answered a)
        (.error (.transport ⟨some a.status, .undecodable path model why⟩))
  | undecodableError {a : Answer} {why : Undecodable} (media : mediaType (contentType a) = jsonMediaType)
      (status : a.status ≠ 200) (body : Unreadable NodeError.shape a.body why) :
      Classified path model shape .undecodable (.answered a)
        (.error (.transport ⟨some a.status, .undecodable path "Error" why⟩))
  | decoded {a : Answer} {r : ρ} (status : a.status = 200) (decodes : Decodes shape a r) :
      Classified path model shape .decoded (.answered a) (.ok r)
  | refused {a : Answer} {e : NodeError} (status : a.status ≠ 200) (decodes : Decodes NodeError.shape a e) :
      Classified path model shape .refused (.answered a) (.error (.node e (some a.status)))

section

variable {path model : String} {shape : Shape ρ}

theorem decode_eq_mediaType {a : Answer} (media : mediaType (contentType a) ≠ jsonMediaType) :
    decode path model shape a = .error ⟨some a.status, .mediaType path (contentType a)⟩ := by
  rw [decode, if_pos media]

theorem decode_eq_undecodable {a : Answer} {why : Undecodable} (media : mediaType (contentType a) = jsonMediaType)
    (body : Unreadable shape a.body why) :
    decode path model shape a = .error ⟨some a.status, .undecodable path model why⟩ := by
  cases body with
  | notJson malformed => simp [decode, media, malformed]
  | faults json read => simp [decode, media, json, read]

theorem answer_cases (shape : Shape ρ) (a : Answer) :
    mediaType (contentType a) ≠ jsonMediaType ∨
      (mediaType (contentType a) = jsonMediaType ∧ ∃ why, Unreadable shape a.body why) ∨
        ∃ r, Decodes shape a r := by
  by_cases media : mediaType (contentType a) = jsonMediaType
  · refine .inr ?_
    cases hbody : Json.read? a.body with
    | none => exact .inl ⟨media, _, .notJson hbody⟩
    | some j =>
        cases hread : shape.read j with
        | error fs => exact .inl ⟨media, _, .faults hbody hread⟩
        | ok r => exact .inr ⟨r, media, j, hbody, hread⟩
  · exact .inl media

theorem Classified.interpret_eq {c : Class} {o : Outcome} {x : Except Failure ρ}
    (h : Classified path model shape c o x) : interpret path model shape o = x := by
  cases h with
  | unreached i => rfl
  | crashed i => rfl
  | @otherMedia a media =>
      rw [interpret, decode_eq_mediaType media, decode_eq_mediaType media]
      split <;> rfl
  | undecodable media status body =>
      rw [interpret, if_pos status, decode_eq_undecodable media body]
      rfl
  | undecodableError media status body => rw [interpret, if_neg status, decode_eq_undecodable media body]
  | decoded status decodes => exact interpret_eq_ok.mpr ⟨_, rfl, status, decodes⟩
  | refused status decodes => exact interpret_eq_node status decodes

theorem exists_classified (path model : String) (shape : Shape ρ) (o : Outcome) :
    ∃ c x, Classified path model shape c o x := by
  cases o with
  | failed i => exact ⟨_, _, .unreached i⟩
  | crashed i => exact ⟨_, _, .crashed i⟩
  | answered a =>
      by_cases status : a.status = 200
      · obtain media | ⟨media, why, body⟩ | ⟨r, decodes⟩ := answer_cases shape a
        · exact ⟨_, _, .otherMedia media⟩
        · exact ⟨_, _, .undecodable media status body⟩
        · exact ⟨_, _, .decoded status decodes⟩
      · obtain media | ⟨media, why, body⟩ | ⟨e, decodes⟩ := answer_cases NodeError.shape a
        · exact ⟨_, _, .otherMedia media⟩
        · exact ⟨_, _, .undecodableError media status body⟩
        · exact ⟨_, _, .refused status decodes⟩

theorem Classified.class_eq {c : Class} {o : Outcome} {x : Except Failure ρ}
    (h : Classified path model shape c o x) : c = Class.ofResult x := by
  cases h <;> rfl

end

def recording (send : Request → StateM σ Outcome) (r : Request) : StateM (σ × List Request) Outcome :=
  fun (s, sent) => (((send r) s).1, ((send r) s).2, sent ++ [r])

/-- An exchange sends one request, which carries the wire form of the record that is asked, and gives what the
class of the outcome says. -/
theorem post_classified (send : Request → StateM σ Outcome) (host : HostSettings) (path : String)
    (asked : Shape α) (a : α) (model : String) (shape : Shape ρ) (s : σ) (sent : List Request) :
    ∃ r outcome s' c x,
      r.method = "POST" ∧ r.url = host.baseUrl ++ path ∧ r.body = (asked.display a).wire ∧
        r.connectTimeout = host.transport.connectTimeout ∧ r.readTimeout = host.transport.requestTimeout ∧
          r.verify = host.transport.verifyTls ∧
      send r s = (outcome, s') ∧
      post (recording send) host path (asked.display a).wire model shape (s, sent) = (x, s', sent ++ [r]) ∧
      Classified path model shape c outcome x ∧
        ∀ d y, Classified path model shape d outcome y → d = c ∧ y = x := by
  let r := request host path (asked.display a).wire
  obtain ⟨c, x, hx⟩ := exists_classified path model shape (send r s).1
  refine ⟨r, (send r s).1, (send r s).2, c, x, rfl, rfl, rfl, rfl, rfl, rfl, rfl, ?_, hx, ?_⟩
  · rw [← hx.interpret_eq]
    rfl
  · intro d y hy
    obtain rfl : x = y := hx.interpret_eq.symm.trans hy.interpret_eq
    exact ⟨hy.class_eq.trans hx.class_eq.symm, rfl⟩

end LedgerQuery.Http
