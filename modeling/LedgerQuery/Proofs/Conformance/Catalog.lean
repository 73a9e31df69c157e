import LedgerQuery.Proofs.Conformance.Order
import LedgerQuery.Proofs.Conformance.Rules
import Mathlib.Tactic.MkIffOfInductiveProp

namespace LedgerQuery

open Checked

def Version.faults : Option Version → List Violation
  | none => [.absent "Version"]
  | some v =>
    faultIf (v.node = "") (.fieldMissing "Version.node_version") ++
      faultIf (v.middleware = some "") (.fieldMissing "Version.middleware_version")

def Options.faults : Option Options → List Violation
  | none => [.absent "Options"]
  | some o =>
    faultIf (o.operationStatuses = []) (.emptyField "Options.operation_statuses") ++
      (faultIf (∀ s ∈ o.operationStatuses, s.successful = false) (.noneSuccessful "Options.operation_statuses") ++
        faultIf (o.operationTypes = []) (.emptyField "Options.operation_types"))

def NodeError.faults : Option NodeError → List Violation
  | none => [.absent "Error"]
  | some e =>
    faultIf (e.code < 0) (.negativeCode "Error.code" e.code) ++ faultIf (e.message = "") (.fieldMissing "Error.message")

theorem reports_checkVersion (version : Option Version) : Reports (checkVersion version) (Version.faults version) := by
  cases version with
  | none => exact rfl
  | some v =>
      refine (reports_ensure (by simp) _).bind fun _ _ => ?_
      exact (reports_ensure (by simp) _).bind_ok fun _ => v

theorem reports_checkOptions (options : Option Options) : Reports (checkOptions options) (Options.faults options) := by
  cases options with
  | none => exact rfl
  | some o =>
      refine (reports_ensure (by simp) _).bind fun _ _ => ?_
      refine (reports_ensure (by simp) _).bind fun _ _ => ?_
      exact (reports_ensure (by simp) _).bind_ok fun _ => o

theorem reports_checkNodeError (error : Option NodeError) :
    Reports (checkNodeError error) (NodeError.faults error) := by
  cases error with
  | none => exact rfl
  | some e =>
      refine (reports_ensure (by simp) _).bind fun _ _ => ?_
      exact (reports_ensure (by simp) _).bind_ok fun _ => e

theorem NodeError.faults_eq_nil {e : NodeError} : faults (some e) = [] ↔ e.WellFormed := by
  rw [← (reports_checkNodeError (some e)).ok_iff]
  simp [checkNodeError_eq_ok]

theorem some_of_checkNodeError (error : Option NodeError) (e : NodeError) (h : checkNodeError error = .ok e) :
    id error = some e := (checkNodeError_eq_ok.mp h).1

def NodeError.catalogFaults (errors : List (Option NodeError)) : List Violation :=
  distinctFaults faults id (·.code == ·.code) (fun e => .repeatedCode e.code) [] errors

theorem reports_checkCatalog (errors : List (Option NodeError)) :
    Reports (checkCatalog errors) (NodeError.catalogFaults errors) :=
  (reports_distinct reports_checkNodeError some_of_checkNodeError [] errors).bind_ok fun _ => ()

namespace NodeError

/-- Entries that are as they should be, each with a code of its own. -/
@[mk_iff]
structure Cataloged (errors : List (Option NodeError)) : Prop where
  sound : ∀ e ∈ errors, faults e = []
  distinct : Distinct (·.code == ·.code) (errors.filterMap id)

/-- The violation of a catalog that is met first. The entries before the one at fault are as they should be; that
entry is either at fault by itself, and then its first fault is reported, or has the code of one of them. -/
inductive FirstFault (errors : List (Option NodeError)) : Violation → Prop
  | malformed {before after : List (Option NodeError)} {e : Option NodeError} {v : Violation}
      (position : errors = before ++ e :: after)
      (earlier : Cataloged before)
      (first : (faults e).head? = some v) : FirstFault errors v
  | repeated {before after : List (Option NodeError)} {e : NodeError}
      (position : errors = before ++ some e :: after)
      (earlier : Cataloged before)
      (sound : faults (some e) = [])
      (again : ∃ f, some f ∈ before ∧ f.code = e.code) : FirstFault errors (.repeatedCode e.code)

theorem exists_code_iff {before : List (Option NodeError)} {e : NodeError} :
    (∃ f ∈ before.filterMap id, (f.code == e.code) = true) ↔ ∃ f, some f ∈ before ∧ f.code = e.code := by
  simp

theorem firstFault_iff {errors : List (Option NodeError)} {v : Violation} :
    (catalogFaults errors).head? = some v ↔ FirstFault errors v := by
  rw [catalogFaults, head?_distinctFaults_nil reports_checkNodeError some_of_checkNodeError]
  constructor
  · rintro ⟨before, e, after, position, ⟨sound, distinct⟩, first | ⟨hsound, e, rfl, again, rfl⟩⟩
    · exact .malformed position ⟨sound, distinct⟩ first
    · exact .repeated position ⟨sound, distinct⟩ hsound (exists_code_iff.mp again)
  · intro h
    cases h with
    | malformed position earlier first =>
        exact ⟨_, _, _, position, ⟨earlier.sound, earlier.distinct⟩, .inl first⟩
    | repeated position earlier sound again =>
        exact ⟨_, _, _, position, ⟨earlier.sound, earlier.distinct⟩,
          .inr ⟨sound, _, rfl, exists_code_iff.mpr again, rfl⟩⟩

end NodeError

theorem checkCatalog_eq_error {errors : List (Option NodeError)} {v : Violation} :
    checkCatalog errors = .error v ↔ NodeError.FirstFault errors v := by
  rw [(reports_checkCatalog errors).error_iff, NodeError.firstFault_iff]

theorem checkCatalog_ok_iff_cataloged {errors : List (Option NodeError)} :
    checkCatalog errors = .ok () ↔ NodeError.Cataloged errors := by
  have hok : checkCatalog errors = .ok () ↔ ∃ u, checkCatalog errors = .ok u := ⟨fun h => ⟨(), h⟩, fun ⟨(), h⟩ => h⟩
  rw [hok, (reports_checkCatalog errors).ok_iff, NodeError.catalogFaults,
    distinctFaults_eq_nil reports_checkNodeError some_of_checkNodeError]
  exact (NodeError.cataloged_iff errors).symm

theorem exists_entries_of_checkCatalog {errors : List (Option NodeError)} (h : checkCatalog errors = .ok ()) :
    ∃ es : List NodeError, errors = es.map some := by
  have hpresent : ∀ e ∈ errors, e ≠ none := by
    rintro _ he rfl
    cases (checkCatalog_ok_iff_cataloged.mp h).sound _ he
  clear h
  induction errors with
  | nil => exact ⟨[], rfl⟩
  | cons e errors ih =>
      obtain ⟨he, herrors⟩ := List.forall_mem_cons.mp hpresent
      obtain ⟨f, rfl⟩ := Option.ne_none_iff_exists'.mp he
      obtain ⟨es, rfl⟩ := ih herrors
      exact ⟨f :: es, rfl⟩

theorem checkCatalog_eq_ok_iff {errors : List (Option NodeError)} :
    checkCatalog errors = .ok () ↔
      ∃ es : List NodeError, errors = es.map some ∧ (∀ e ∈ es, e.WellFormed) ∧ (es.map (·.code)).Nodup := by
  constructor
  · intro h
    obtain ⟨es, rfl⟩ := exists_entries_of_checkCatalog h
    exact ⟨es, rfl, checkCatalog_eq_ok.mp h⟩
  · rintro ⟨es, rfl, h⟩
    exact checkCatalog_eq_ok.mpr h

/-- The violation of the options that is met first. -/
inductive NetworkOptionsResponse.FirstFault : Option NetworkOptionsResponse → Violation → Prop
  | absent : FirstFault none (.absent "NetworkOptionsResponse")
  | version {r : NetworkOptionsResponse} {v : Violation} (first : (Version.faults r.version).head? = some v) :
      FirstFault (some r) v
  | allow {r : NetworkOptionsResponse} {v : Violation}
      (version_sound : Version.faults r.version = [])
      (first : (Options.faults r.allow).head? = some v) : FirstFault (some r) v
  | catalog {r : NetworkOptionsResponse} {o : Options} {v : Violation}
      (version_sound : Version.faults r.version = [])
      (allowed : r.allow = some o)
      (allow_sound : Options.faults (some o) = [])
      (first : NodeError.FirstFault (o.errors.map some) v) : FirstFault (some r) v

theorem reports_checkNetworkOptions (r : NetworkOptionsResponse) :
    Reports (checkNetworkOptionsResponse (some r)) (Version.faults r.version ++
      (Options.faults r.allow ++ NodeError.catalogFaults (r.allow.elim [] (·.errors.map some)))) := by
  refine (reports_checkVersion r.version).bind fun _ _ => ?_
  refine (reports_checkOptions r.allow).bind fun allow hallow => ?_
  rw [(checkOptions_eq_ok.mp hallow).1]
  exact reports_checkCatalog (allow.errors.map some)

theorem checkNetworkOptions_eq_error {response : Option NetworkOptionsResponse} {v : Violation} :
    checkNetworkOptionsResponse response = .error v ↔ NetworkOptionsResponse.FirstFault response v := by
  cases response with
  | none =>
      constructor
      · rintro ⟨⟩
        exact .absent
      · rintro ⟨⟩
        exact rfl
  | some r =>
      rw [(reports_checkNetworkOptions r).error_iff, head?_append_eq_some, head?_append_eq_some]
      constructor
      · rintro (hversion | ⟨hversion, hallow | ⟨hallow, hcatalog⟩⟩)
        · exact .version hversion
        · exact .allow hversion hallow
        · cases ho : r.allow with
          | none =>
              rw [ho] at hallow
              cases hallow
          | some o =>
              rw [ho] at hallow hcatalog
              exact .catalog hversion ho hallow (NodeError.firstFault_iff.mp hcatalog)
      · intro h
        cases h with
        | version first => exact .inl first
        | allow version_sound first => exact .inr ⟨version_sound, .inl first⟩
        | catalog version_sound allowed allow_sound first =>
            rw [allowed]
            exact .inr ⟨version_sound, .inr ⟨allow_sound, NodeError.firstFault_iff.mpr first⟩⟩

/-- Options, and a catalog by itself, are refused with the violation that is met first, and pass if there is none: then
the codes of the catalog are pairwise different and none is negative. -/
theorem checkNetworkOptions_first :
    (∀ response v, checkNetworkOptionsResponse response = .error v ↔
      NetworkOptionsResponse.FirstFault response v) ∧
    (∀ response, checkNetworkOptionsResponse response = .ok () ↔
      ∃ r version allow, response = some r ∧ r.version = some version ∧ version.WellFormed ∧
        r.allow = some allow ∧ allow.WellFormed ∧ (∀ e ∈ allow.errors, e.WellFormed) ∧
          (allow.errors.map (·.code)).Nodup) ∧
    (∀ errors v, checkCatalog errors = .error v ↔ NodeError.FirstFault errors v) ∧
    (∀ errors, checkCatalog errors = .ok () ↔
      ∃ es : List NodeError, errors = es.map some ∧ (∀ e ∈ es, e.WellFormed) ∧ (es.map (·.code)).Nodup) := by
  refine ⟨fun _ _ => checkNetworkOptions_eq_error, fun response => ?_, fun _ _ => checkCatalog_eq_error,
    fun _ => checkCatalog_eq_ok_iff⟩
  cases response with
  | none =>
      constructor
      · rintro ⟨⟩
      · rintro ⟨_, _, _, ⟨⟩, -⟩
  | some r =>
      rw [show checkNetworkOptionsResponse (some r) = Operation.networkOptions.validate (some r) from rfl,
        validate_eq_ok]
      constructor
      · rintro ⟨⟨version, hversion, hwell⟩, allow, hallow, hallowed⟩
        exact ⟨r, version, allow, rfl, hversion, hwell, hallow, hallowed⟩
      · rintro ⟨_, version, allow, ⟨⟩, hversion, hwell, hallow, hallowed⟩
        exact ⟨⟨version, hversion, hwell⟩, allow, hallow, hallowed⟩

example : checkCatalog [some ⟨7, "busy", none, none⟩, some ⟨7, "", none, none⟩] =
    .error (.fieldMissing "Error.message") := rfl

end LedgerQuery
