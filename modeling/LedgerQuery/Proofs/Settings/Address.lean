import LedgerQuery.Http.Exchange
import LedgerQuery.Proofs.Json.Members
import LedgerQuery.Proofs.Settings.Load
import Mathlib.Data.List.DropRight

namespace LedgerQuery

namespace Address

/-- The text begins with a scheme that requests can be made under. -/
def HasScheme (s : String) : Prop := ∃ scheme ∈ schemes, scheme.toList <+: s.toList

/-- The text is a scheme with nothing but slashes after it. -/
def Bare (s : String) : Prop :=
  ∃ scheme ∈ schemes, scheme.toList <+: s.toList ∧ ∀ c ∈ s.toList.drop scheme.toList.length, c = '/'

def remnants : List String := schemes.map dropTrailingSlashes

/-- An address that requests can be made under, and that would be accepted again as it is. -/
structure Usable (u : String) : Prop where
  scheme : HasScheme u
  trimmed : u.toList.getLast? ≠ some '/'
  stable : checkBaseUrl u = .ok u

instance (s : String) : Decidable (HasScheme s) :=
  inferInstanceAs (Decidable (∃ scheme ∈ schemes, scheme.toList <+: s.toList))

instance (s : String) : Decidable (Bare s) :=
  decidable_of_iff (∃ scheme ∈ schemes, scheme.toList <+: s.toList ∧
      (s.toList.drop scheme.toList.length).all (· = '/') = true) (by
    simp only [Bare, List.all_eq_true, decide_eq_true_eq])

variable {s u : String}

theorem toList_dropTrailingSlashes (s : String) :
    (dropTrailingSlashes s).toList = s.toList.rdropWhile (· = '/') := String.toList_ofList ..

theorem checkBaseUrl_eq_ok : checkBaseUrl s = .ok u ↔ HasScheme s ∧ dropTrailingSlashes s = u := by
  have hscheme : (schemes.any fun scheme => scheme.toList.isPrefixOf s.toList) = true ↔ HasScheme s := by
    simp only [List.any_eq_true, List.isPrefixOf_iff_prefix, HasScheme]
  rw [checkBaseUrl]
  split
  · rename_i h
    rw [Except.ok.injEq, and_iff_right (hscheme.mp h)]
  · rename_i h
    simp [mt hscheme.mpr h]

section

variable {p : Char → Bool} {xs ys : List Char}

theorem rdropWhile_append_of_all (h : ∀ c ∈ ys, p c = true) : (xs ++ ys).rdropWhile p = xs.rdropWhile p := by
  induction ys using List.reverseRecOn with
  | nil => rw [List.append_nil]
  | append_singleton ys y ih =>
      obtain ⟨hys, hy⟩ := List.forall_mem_append.mp h
      rw [← List.append_assoc, List.rdropWhile_concat_pos _ _ _ (hy y List.mem_cons_self), ih hys]

theorem rdropWhile_append_of_not (h : ¬∀ c ∈ ys, p c = true) :
    (xs ++ ys).rdropWhile p = xs ++ ys.rdropWhile p := by
  induction ys using List.reverseRecOn with
  | nil => exact absurd (List.forall_mem_nil _) h
  | append_singleton ys y ih =>
      rw [← List.append_assoc]
      by_cases hy : p y = true
      · have hys : ¬∀ c ∈ ys, p c = true := by
          intro hys
          exact h (List.forall_mem_append.mpr ⟨hys, List.forall_mem_singleton.mpr hy⟩)
        rw [List.rdropWhile_concat_pos _ _ _ hy, List.rdropWhile_concat_pos _ _ _ hy, ih hys]
      · rw [List.rdropWhile_concat_neg _ _ _ hy, List.rdropWhile_concat_neg _ _ _ hy, List.append_assoc]

end

theorem hasScheme_dropTrailingSlashes (h : HasScheme s) (bare : ¬Bare s) : HasScheme (dropTrailingSlashes s) := by
  obtain ⟨scheme, hmem, rest, heq⟩ := h
  refine ⟨scheme, hmem, ?_⟩
  have hrest : ¬∀ c ∈ rest, decide (c = '/') = true := by
    intro hslashes
    refine bare ⟨scheme, hmem, ⟨rest, heq⟩, ?_⟩
    rw [← heq, List.drop_left]
    exact fun c hc => of_decide_eq_true (hslashes c hc)
  rw [toList_dropTrailingSlashes, ← heq, rdropWhile_append_of_not hrest]
  exact List.prefix_append _ _

theorem dropTrailingSlashes_of_bare (bare : Bare s) : dropTrailingSlashes s ∈ remnants := by
  obtain ⟨scheme, hmem, ⟨rest, heq⟩, hslashes⟩ := bare
  rw [← heq, List.drop_left] at hslashes
  have hdrop : dropTrailingSlashes s = dropTrailingSlashes scheme := by
    apply String.toList_injective
    rw [toList_dropTrailingSlashes, toList_dropTrailingSlashes, ← heq]
    exact rdropWhile_append_of_all fun c hc => decide_eq_true (hslashes c hc)
  rw [hdrop]
  exact List.mem_map.mpr ⟨scheme, hmem, rfl⟩

theorem dropTrailingSlashes_idem (s : String) :
    dropTrailingSlashes (dropTrailingSlashes s) = dropTrailingSlashes s := by
  apply String.toList_injective
  simp only [toList_dropTrailingSlashes, List.rdropWhile_idempotent]

theorem getLast?_dropTrailingSlashes (s : String) : (dropTrailingSlashes s).toList.getLast? ≠ some '/' := by
  rw [toList_dropTrailingSlashes]
  intro hlast
  have hne : s.toList.rdropWhile (· = '/') ≠ [] := by
    rintro heq
    rw [heq] at hlast
    cases hlast
  exact List.rdropWhile_last_not _ _ hne (decide_eq_true ((List.getLast_eq_iff_getLast?_eq_some hne).mpr hlast))

theorem not_hasScheme_of_remnant (h : u ∈ remnants) : ¬HasScheme u := by
  have hall : ∀ u ∈ remnants, ¬HasScheme u := by decide
  exact hall u h

theorem usable_iff (h : checkBaseUrl s = .ok u) : (Usable u ↔ ¬Bare s) ∧ (Bare s → u ∈ remnants) := by
  obtain ⟨hscheme, rfl⟩ := checkBaseUrl_eq_ok.mp h
  refine ⟨⟨fun usable bare => ?_, fun bare => ?_⟩, dropTrailingSlashes_of_bare⟩
  · exact not_hasScheme_of_remnant (dropTrailingSlashes_of_bare bare) usable.scheme
  · have hkept := hasScheme_dropTrailingSlashes hscheme bare
    exact ⟨hkept, getLast?_dropTrailingSlashes s, checkBaseUrl_eq_ok.mpr ⟨hkept, dropTrailingSlashes_idem s⟩⟩

end Address

variable {σ : Type} [Source σ]

theorem HostSettings.checked_of_read {x : σ} {host : HostSettings} (h : shape.read x = .ok host) :
    ∃ s, checkBaseUrl s = .ok host.baseUrl := by
  obtain ⟨entries, hfields⟩ := Shape.record_read h
  obtain ⟨_, transport, h₁, -, rfl⟩ := Fields.seq_read.mp hfields
  obtain ⟨_, headers, h₂, -, rfl⟩ := Fields.seq_read.mp h₁
  obtain ⟨baseUrl, hbaseUrl, rfl⟩ := Fields.map_read.mp h₂
  obtain ⟨y, -, hy⟩ := Fields.required_read hbaseUrl
  exact Shape.checked_read hy

theorem Settings.usable_of_read {x : σ} {settings : Settings} (h : shape.read x = .ok settings)
    {e : String × HostSettings} (he : e ∈ settings.hosts) (kept : e.2.baseUrl ∉ Address.remnants) :
    Address.Usable e.2.baseUrl ∧ ∀ path body, Address.HasScheme (Http.request e.2 path body).url := by
  obtain ⟨entries, hfields⟩ := Shape.record_read h
  obtain ⟨_, retry, h₁, -, rfl⟩ := Fields.seq_read.mp hfields
  obtain ⟨_, hosts, h₂, hhosts, rfl⟩ := Fields.seq_read.mp h₁
  obtain ⟨version, -, rfl⟩ := Fields.map_read.mp h₂
  obtain ⟨y, -, hy⟩ := Fields.required_read hhosts
  obtain ⟨z, hz⟩ := Shape.read_of_mem_map hy he
  obtain ⟨s, hs⟩ := HostSettings.checked_of_read hz
  obtain ⟨husable, hremnant⟩ := Address.usable_iff hs
  have usable := husable.mpr fun bare => kept (hremnant bare)
  refine ⟨usable, fun path body => ?_⟩
  obtain ⟨scheme, hmem, hbegins⟩ := usable.scheme
  refine ⟨scheme, hmem, ?_⟩
  rw [Http.request, String.toList_append]
  exact hbegins.trans (List.prefix_append _ _)

namespace SettingsQuery

open Address

/-- An accepted address stays usable, wherever it is from, if there is anything but slashes behind its scheme, and
only then. -/
theorem addresses_usable (s : String) (q : SettingsQuery) (fs : Files) (env : Environment) :
    (∀ u, checkBaseUrl s = .ok u → (Usable u ↔ ¬Bare s) ∧ (Bare s → u ∈ remnants)) ∧
      ∀ loaded, q.load fs env = .ok loaded → ∀ e ∈ loaded.settings.hosts, e.2.baseUrl ∉ remnants →
        Usable e.2.baseUrl ∧ ∀ path body, HasScheme (Http.request e.2 path body).url := by
  refine ⟨fun u => usable_iff, fun loaded h e he kept => ?_⟩
  obtain ⟨d, hd⟩ := read_of_load h
  exact Settings.usable_of_read hd he kept

def slashedText : String := "version: 1\nhosts: \x7ba: \x7bbase_url: 'https://a/b//'\x7d\x7d\n"

def slashedVariables : Environment := [("APP__HOSTS__C__BASE_URL", "http://///c/")]

theorem slashed_usable : checkBaseUrl "https://a/b//" = .ok "https://a/b" ∧ Usable "https://a/b" ∧ ∃ loaded,
    sole.load (soleFile slashedText) slashedVariables = .ok loaded ∧
      loaded.settings.hosts = [("a", ⟨"https://a/b", [], .default⟩), ("c", ⟨"http://///c", [], .default⟩)] ∧
        ∀ e ∈ loaded.settings.hosts,
          Usable e.2.baseUrl ∧ ∀ path body, HasScheme (Http.request e.2 path body).url := by
  obtain ⟨check, load⟩ := addresses_usable "https://a/b//" sole (soleFile slashedText) slashedVariables
  have haccepted : checkBaseUrl "https://a/b//" = .ok "https://a/b" := by decide +kernel
  have husable := (check _ haccepted).1.mpr (by decide +kernel)
  obtain ⟨loaded, hload, hhosts⟩ := exists_of_toOption (show
    (sole.load (soleFile slashedText) slashedVariables).toOption.map (·.settings.hosts) =
      some [("a", ⟨"https://a/b", [], .default⟩), ("c", ⟨"http://///c", [], .default⟩)] by decide +kernel)
  refine ⟨haccepted, husable, loaded, hload, hhosts, fun e he => load _ hload e he ?_⟩
  rw [hhosts] at he
  revert e he
  decide +kernel

def bareText : String := "version: 1\nhosts: \x7ba: \x7bbase_url: 'http://'\x7d\x7d\n"

theorem bare_address_spoilt : ∃ loaded host, sole.load (soleFile bareText) [] = .ok loaded ∧
    loaded.settings.hosts = [("a", host)] ∧ checkBaseUrl "http://" = .ok host.baseUrl ∧ ¬HasScheme host.baseUrl ∧
      checkBaseUrl host.baseUrl = .error .valueError ∧
        ∀ body, ¬HasScheme (Http.request host "/network/list" body).url := by
  obtain ⟨loaded, hload, hhosts⟩ := exists_of_toOption (show
    (sole.load (soleFile bareText) []).toOption.map (·.settings.hosts) =
      some [("a", ⟨"http:", [], .default⟩)] by decide +kernel)
  refine ⟨loaded, _, hload, hhosts, by decide +kernel, by decide +kernel, by decide +kernel, fun body => ?_⟩
  have hurl : ¬HasScheme "http:/network/list" := by decide +kernel
  exact hurl

end SettingsQuery

end LedgerQuery
