import LedgerQuery.Proofs.Http.Classes
import LedgerQuery.Proofs.Settings.Load
import LedgerQuery.Proofs.Text.LowerCase

namespace LedgerQuery.Http

open Text (Alike)

/-- After the header of that very name comes another of the same name. -/
def Overruled (name : String) (headers : List (String × String)) : Prop :=
  ∃ before value after, headers = before ++ (name, value) :: after ∧ ∃ h ∈ after, Alike h.1 name

def mediaHeaders : List String := ["Content-Type", "Accept"]

section

variable {name key k value w : String} {headers rest : List (String × String)}

theorem header?_cons (name k w : String) (rest : List (String × String)) :
    header? name ((k, w) :: rest) = (header? name rest).or (if Alike k name then some w else none) := by
  rw [header?, header?, List.reverse_cons, List.find?_append, Option.map_or]
  congr 1
  by_cases h : Text.lower k = Text.lower name <;> simp [Alike, h]

theorem header?_congr {a b : String} (h : Alike a b) (headers : List (String × String)) :
    header? a headers = header? b headers := by
  rw [header?, header?, h]

theorem header?_isSome : (header? name headers).isSome = true ↔ ∃ h ∈ headers, Alike h.1 name := by
  simp [header?, Alike]

theorem not_overruled_nil : ¬Overruled name [] := by
  rintro ⟨before, value, after, heq, -⟩
  simp at heq

theorem overruled_cons :
    Overruled name ((k, w) :: rest) ↔ k = name ∧ (header? name rest).isSome = true ∨ Overruled name rest := by
  constructor
  · rintro ⟨before, value, after, heq, hafter⟩
    cases before with
    | nil =>
        cases heq
        exact .inl ⟨rfl, header?_isSome.mpr hafter⟩
    | cons h before =>
        cases heq
        exact .inr ⟨before, value, after, rfl, hafter⟩
  · rintro (⟨rfl, hrest⟩ | ⟨before, value, after, rfl, hafter⟩)
    · exact ⟨[], w, rest, rfl, header?_isSome.mp hrest⟩
    · exact ⟨(k, w) :: before, value, after, rfl, hafter⟩

instance decidableOverruled (name : String) : ∀ headers, Decidable (Overruled name headers)
  | [] => isFalse not_overruled_nil
  | (_, _) :: rest =>
    have := decidableOverruled name rest
    decidable_of_iff _ overruled_cons.symm

theorem Overruled.isSome (h : Overruled name headers) : (header? name headers).isSome = true := by
  obtain ⟨before, value, after, rfl, e, he, hsame⟩ := h
  exact header?_isSome.mpr ⟨e, List.mem_append_right _ (List.mem_cons_of_mem _ he), hsame⟩

theorem header?_insert_of_ne (h : ¬Alike key name) (value : String) (headers : List (String × String)) :
    header? name (insert key value headers) = header? name headers := by
  induction headers with
  | nil => rw [insert, header?_cons, if_neg h, Option.or_none]
  | cons e rest ih =>
      obtain ⟨k, w⟩ := e
      by_cases hk : k = key
      · subst hk
        rw [insert, if_pos rfl, header?_cons, header?_cons, if_neg h, if_neg h]
      · rw [insert, if_neg hk, header?_cons, header?_cons, ih]

theorem overruled_insert_of_ne (h : ¬Alike key name) (value : String) (headers : List (String × String)) :
    Overruled name (insert key value headers) ↔ Overruled name headers := by
  have hne : key ≠ name := by
    rintro rfl
    exact h rfl
  induction headers with
  | nil => simp [insert, overruled_cons, hne]
  | cons e rest ih =>
      obtain ⟨k, w⟩ := e
      by_cases hk : k = key
      · subst hk
        rw [insert, if_pos rfl, overruled_cons, overruled_cons]
      · rw [insert, if_neg hk, overruled_cons, overruled_cons, header?_insert_of_ne h]
        exact or_congr Iff.rfl ih

theorem header?_insert_self (h : ¬Overruled key headers) (value : String) :
    header? key (insert key value headers) = some value := by
  induction headers with
  | nil => rw [insert, header?_cons, if_pos (Alike.refl key)]; rfl
  | cons e rest ih =>
      obtain ⟨k, w⟩ := e
      rw [overruled_cons, not_or, not_and] at h
      by_cases hk : k = key
      · subst hk
        have hnone : header? k rest = none := by simpa using h.1 rfl
        rw [insert, if_pos rfl, header?_cons, hnone, if_pos (Alike.refl k), Option.none_or]
      · rw [insert, if_neg hk, header?_cons, ih h.2, Option.some_or]

theorem header?_insert_of_overruled (h : Overruled key headers) (value : String) :
    header? key (insert key value headers) = header? key headers := by
  induction headers with
  | nil => exact absurd h not_overruled_nil
  | cons e rest ih =>
      obtain ⟨k, w⟩ := e
      have hrest : k = key → (header? key rest).isSome = true := by
        rintro rfl
        obtain ⟨-, hsome⟩ | hlater := overruled_cons.mp h
        · exact hsome
        · exact hlater.isSome
      by_cases hk : k = key
      · obtain ⟨v, hv⟩ := Option.isSome_iff_exists.mp (hrest hk)
        rw [insert, if_pos hk, header?_cons, header?_cons, hv, Option.some_or, Option.some_or]
      · obtain ⟨rfl, -⟩ | hlater := overruled_cons.mp h
        · exact absurd rfl hk
        · rw [insert, if_neg hk, header?_cons, header?_cons, ih hlater]

end

section

variable (host : HostSettings) {name : String}

theorem header?_requestHeaders_of_ne (h : ∀ fixed ∈ mediaHeaders, ¬Alike fixed name) :
    header? name (requestHeaders host) = header? name host.headers := by
  rw [requestHeaders, header?_insert_of_ne (h _ (by decide)), header?_insert_of_ne (h _ (by decide))]

theorem header?_requestHeaders {fixed : String} (hfixed : fixed ∈ mediaHeaders) :
    header? fixed (requestHeaders host) =
      if Overruled fixed host.headers then header? fixed host.headers else some jsonMediaType := by
  have hset (headers : List (String × String)) : header? fixed (insert fixed jsonMediaType headers) =
      if Overruled fixed headers then header? fixed headers else some jsonMediaType := by
    split
    · exact header?_insert_of_overruled (by assumption) _
    · exact header?_insert_self (by assumption) _
  have hne : ¬Alike "Accept" "Content-Type" := by decide +kernel
  obtain rfl | hfixed := List.mem_cons.mp hfixed
  · rw [requestHeaders, header?_insert_of_ne hne, hset]
  · obtain rfl := List.mem_singleton.mp hfixed
    have hne' : ¬Alike "Content-Type" "Accept" := fun h => hne h.symm
    rw [requestHeaders, hset, header?_insert_of_ne hne', if_congr (overruled_insert_of_ne hne' _ _) rfl rfl]

end

section

variable {σ ρ : Type} (send : Request → StateM σ Outcome) (host : HostSettings) (path : String) (body : Json)
  (model : String) (shape : Shape ρ) (s : σ) (sent : List Request)

theorem post_recording : ∃ x s',
    post (recording send) host path body model shape (s, sent) = (x, s', sent ++ [request host path body]) :=
  ⟨_, _, rfl⟩

/-- The media types that go out are that of JSON, in whatever letters one asks for them, unless another of the same
name is configured behind the one that is replaced; under every other name goes out what is configured last. -/
theorem post_headers : ∃ r x s',
    post (recording send) host path body model shape (s, sent) = (x, s', sent ++ [r]) ∧
      (∀ fixed ∈ mediaHeaders, ∀ name, Alike name fixed →
        header? name r.headers =
          if Overruled fixed host.headers then header? name host.headers else some jsonMediaType) ∧
      ∀ name, (∀ fixed ∈ mediaHeaders, ¬Alike fixed name) →
        header? name r.headers = header? name host.headers := by
  obtain ⟨x, s', hpost⟩ := post_recording send host path body model shape s sent
  refine ⟨_, x, s', hpost, fun fixed hfixed name hname => ?_, fun name hname => ?_⟩
  · rw [header?_congr hname, header?_congr hname]
    exact header?_requestHeaders host hfixed
  · exact header?_requestHeaders_of_ne host hname

end

def mixedHost : HostSettings := ⟨"http://a",
  [("content-type", "text/plain"), ("X-Key", "1"), ("Content-Type", "text/html"), ("x-key", "2"), ("ACCEPT", "*/*")],
  .default⟩

def unreachable (_ : Request) : StateM Unit Outcome := pure (.failed ⟨"ConnectionError", ""⟩)

theorem mixedHost_headers : ∃ r x s',
    post (recording unreachable) mixedHost "/network/list" (.object []) "NetworkListResponse" (.list .text) ((), []) =
        (x, s', [r]) ∧
      header? "content-TYPE" r.headers = some "application/json" ∧
        header? "accept" r.headers = some "application/json" ∧ header? "X-KEY" r.headers = some "2" := by
  obtain ⟨r, x, s', hpost, hfixed, hothers⟩ :=
    post_headers unreachable mixedHost "/network/list" (.object []) "NetworkListResponse" (.list .text) () []
  refine ⟨r, x, s', hpost, ?_, ?_, ?_⟩
  · rw [hfixed "Content-Type" (by decide) _ (by decide +kernel), if_neg (by decide +kernel)]
    rfl
  · rw [hfixed "Accept" (by decide) _ (by decide +kernel), if_neg (by decide +kernel)]
    rfl
  · rw [hothers _ (by decide +kernel)]
    decide +kernel

def overruledText : String :=
  "version: 1\nhosts:\n  a: \x7bbase_url: http://a, headers: \x7bContent-Type: application/json\x7d\x7d\n"

def overrulingVariables : Environment := [("APP__HOSTS__A__HEADERS__CONTENT-TYPE", "text/plain")]

/-- A variable adds to the header of the file another of that name, in small letters: it is the one that is read. -/
theorem media_overruled : ∃ loaded host,
    SettingsQuery.sole.load (SettingsQuery.soleFile overruledText) overrulingVariables = .ok loaded ∧
      loaded.settings.hosts = [("a", host)] ∧
        ∀ (σ ρ : Type) (send : Request → StateM σ Outcome) path body model (shape : Shape ρ) s sent, ∃ r x s',
          post (recording send) host path body model shape (s, sent) = (x, s', sent ++ [r]) ∧
            header? "Content-Type" r.headers = some "text/plain" := by
  obtain ⟨loaded, hload, hhosts⟩ := exists_of_toOption (show
    (SettingsQuery.sole.load (SettingsQuery.soleFile overruledText) overrulingVariables).toOption.map
        (·.settings.hosts) =
      some [("a", ⟨"http://a", [("Content-Type", "application/json"), ("content-type", "text/plain")], .default⟩)] by
    decide +kernel)
  refine ⟨loaded, _, hload, hhosts, fun σ ρ send path body model shape s sent => ?_⟩
  obtain ⟨x, s', hpost⟩ := post_recording send _ path body model shape s sent
  refine ⟨_, x, s', hpost, ?_⟩
  rw [request, header?_requestHeaders _ (by decide), if_pos (by decide +kernel)]
  decide +kernel

end LedgerQuery.Http
