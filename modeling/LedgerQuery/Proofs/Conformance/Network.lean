import LedgerQuery.Proofs.Conformance.Order
import LedgerQuery.Proofs.Conformance.Rules
import LedgerQuery.Proofs.Record.Keyed
import Mathlib.Tactic.MkIffOfInductiveProp

namespace LedgerQuery

open Checked

def NetworkIdentifier.faults (n : NetworkIdentifier) : List Violation :=
  faultIf (n.blockchain = "") (.fieldMissing "NetworkIdentifier.blockchain") ++
    (faultIf (n.network = "") (.fieldMissing "NetworkIdentifier.network") ++
      faultIf (∃ sub ∈ n.subNetwork, sub.network = "")
        (.fieldMissing "NetworkIdentifier.sub_network_identifier.network"))

theorem reports_checkNetwork (n : NetworkIdentifier) : Reports (checkNetwork (some n)) n.faults := by
  refine (reports_ensure (by simp) _).bind fun _ _ => ?_
  refine (reports_ensure (by simp) _).bind fun _ _ => ?_
  refine (reports_ensure ?_ _).bind_ok fun _ => n
  simp [Option.all_eq_true]

theorem NetworkIdentifier.faults_eq_nil {n : NetworkIdentifier} : n.faults = [] ↔ n.WellFormed := by
  rw [← (reports_checkNetwork n).ok_iff]
  simp only [checkNetwork_eq_ok]
  constructor
  · rintro ⟨m, hm, hwell⟩
    cases hm
    exact hwell
  · intro hwell
    exact ⟨n, rfl, hwell⟩

theorem some_of_checkNetwork (n m : NetworkIdentifier) (h : (checkNetwork ∘ some) n = .ok m) : some n = some m :=
  (checkNetwork_eq_ok.mp h).1

def NetworkListResponse.faults (r : NetworkListResponse) : List Violation :=
  distinctFaults NetworkIdentifier.faults some NetworkIdentifier.same .repeatedNetwork [] r.networks

theorem reports_checkNetworkList (r : NetworkListResponse) :
    Reports (checkNetworkListResponse (some r)) r.faults :=
  (reports_distinct reports_checkNetwork some_of_checkNetwork [] r.networks).bind_ok fun _ => ()

namespace NetworkIdentifier

/-- Networks of which each is well formed and differs from all before it. -/
@[mk_iff]
structure Listed (networks : List NetworkIdentifier) : Prop where
  wellFormed : ∀ n ∈ networks, n.WellFormed
  distinct : Distinct same networks

/-- The violation of a list that is met first. The entries before the one at fault are as they should be; that entry
either has an empty field, the first of which is reported, or is the same as one of them. -/
inductive FirstFault (networks : List NetworkIdentifier) : Violation → Prop
  | malformed {before after : List NetworkIdentifier} {n : NetworkIdentifier} {v : Violation}
      (position : networks = before ++ n :: after)
      (earlier : Listed before)
      (first : n.faults.head? = some v) : FirstFault networks v
  | repeated {before after : List NetworkIdentifier} {n : NetworkIdentifier}
      (position : networks = before ++ n :: after)
      (earlier : Listed before)
      (sound : n.WellFormed)
      (again : ∃ m ∈ before, m.same n = true) : FirstFault networks (.repeatedNetwork n)

theorem distinctFaults_eq_nil_iff {networks : List NetworkIdentifier} :
    distinctFaults faults some same .repeatedNetwork [] networks = [] ↔ Listed networks := by
  rw [distinctFaults_eq_nil reports_checkNetwork some_of_checkNetwork, List.filterMap_some, listed_iff]
  simp only [faults_eq_nil]

theorem head?_repeatFaults {before : List NetworkIdentifier} {n : NetworkIdentifier} {v : Violation} :
    (repeatFaults some same .repeatedNetwork before n).head? = some v ↔
      (∃ m ∈ before, m.same n = true) ∧ v = .repeatedNetwork n := by
  rw [repeatFaults, List.filterMap_some, head?_faultIf, eq_comm]

theorem firstFault_iff {r : NetworkListResponse} {v : Violation} :
    r.faults.head? = some v ↔ FirstFault r.networks v := by
  rw [NetworkListResponse.faults, head?_distinctFaults]
  constructor
  · rintro ⟨before, n, after, position, hearlier, hfirst⟩
    rw [head?_append_eq_some, head?_repeatFaults, faults_eq_nil] at hfirst
    obtain hfirst | ⟨hsound, hagain, rfl⟩ := hfirst
    · exact .malformed position (distinctFaults_eq_nil_iff.mp hearlier) hfirst
    · exact .repeated position (distinctFaults_eq_nil_iff.mp hearlier) hsound hagain
  · intro h
    cases h with
    | malformed position earlier first =>
        exact ⟨_, _, _, position, distinctFaults_eq_nil_iff.mpr earlier, head?_append_eq_some.mpr (.inl first)⟩
    | repeated position earlier sound again =>
        exact ⟨_, _, _, position, distinctFaults_eq_nil_iff.mpr earlier,
          head?_append_eq_some.mpr (.inr ⟨faults_eq_nil.mpr sound, head?_repeatFaults.mpr ⟨again, rfl⟩⟩)⟩

theorem FirstFault.append {networks : List NetworkIdentifier} {v : Violation} (h : FirstFault networks v)
    (more : List NetworkIdentifier) : FirstFault (networks ++ more) v := by
  cases h with
  | @malformed before after n _ position earlier first =>
      have hposition : networks ++ more = before ++ n :: (after ++ more) := by simp [position]
      exact .malformed hposition earlier first
  | @repeated before after n position earlier sound again =>
      have hposition : networks ++ more = before ++ n :: (after ++ more) := by simp [position]
      exact .repeated hposition earlier sound again

theorem distinct_iff {networks : List NetworkIdentifier} (keyed : ∀ n ∈ networks, (shape.json n).Keyed) :
    Distinct same networks ↔ ∀ i j, ∀ (hi : i < networks.length) (hj : j < networks.length), i ≠ j →
      networks[i].same networks[j] = false := by
  have structural := Structural.of_same NetworkIdentifier.decides.same_eq
  rw [Distinct, List.pairwise_iff_getElem]
  constructor
  · intro h i j hi hj hne
    obtain hlt | hgt := Nat.lt_or_gt_of_ne hne
    · exact h i j hi hj hlt
    · refine Bool.eq_false_iff.mpr fun hsame => ?_
      have hback := structural.symmetric _ _ (keyed _ (List.getElem_mem hi)) (keyed _ (List.getElem_mem hj)) hsame
      rw [h j i hj hi hgt] at hback
      cases hback
  · intro h i j hi hj hlt
    exact h i j hi hj (Nat.ne_of_lt hlt)

end NetworkIdentifier

open NetworkIdentifier

/-- A list of networks is refused with the violation that is met first, whatever is appended to it, and passes if all
its entries are well formed and no two are the same. The order of two entries that are compared does not matter where
metadata has no two members of one name, which is so of all that is read from text. -/
theorem checkNetworkList_first (r : NetworkListResponse) :
    (∀ v, checkNetworkListResponse (some r) = .error v ↔ FirstFault r.networks v) ∧
      ((∀ n ∈ r.networks, (shape.json n).Keyed) →
        (checkNetworkListResponse (some r) = .ok () ↔ (∀ n ∈ r.networks, n.WellFormed) ∧
          ∀ i j, ∀ (hi : i < r.networks.length) (hj : j < r.networks.length), i ≠ j →
            r.networks[i].same r.networks[j] = false)) ∧
      (∀ text j, Json.read? text = some j → NetworkListResponse.shape.read j = .ok r →
        ∀ n ∈ r.networks, (shape.json n).Keyed) ∧
      ∀ v more, checkNetworkListResponse (some r) = .error v →
        checkNetworkListResponse (some ⟨r.networks ++ more⟩) = .error v := by
  have hfirst (r : NetworkListResponse) (v : Violation) :
      checkNetworkListResponse (some r) = .error v ↔ FirstFault r.networks v := by
    rw [(reports_checkNetworkList r).error_iff, firstFault_iff]
  refine ⟨hfirst r, fun keyed => ?_, fun _ _ => NetworkListResponse.keyed, fun v more hv => ?_⟩
  · have hok : checkNetworkListResponse (some r) = .ok () ↔ ∃ u, checkNetworkListResponse (some r) = .ok u :=
      ⟨fun h => ⟨(), h⟩, fun ⟨_, h⟩ => h⟩
    rw [hok, (reports_checkNetworkList r).ok_iff, NetworkListResponse.faults, distinctFaults_eq_nil_iff, listed_iff,
      distinct_iff keyed]
  · exact (hfirst _ v).mpr (((hfirst r v).mp hv).append more)

theorem repeated_before_malformed :
    let whole : NetworkIdentifier := ⟨"bitcoin", "mainnet", some ⟨"shard", some [("n", .number (.int 1))]⟩⟩
    let double : NetworkIdentifier := ⟨"bitcoin", "mainnet", some ⟨"shard", some [("n", .number (.float 1.0))]⟩⟩
    checkNetworkListResponse (some ⟨[whole, double, ⟨"", "", none⟩]⟩) = .error (.repeatedNetwork double) ∧
      checkNetworkListResponse (some ⟨[whole]⟩) = .ok () := by
  intro whole double
  have hwhole : whole.WellFormed := by simp [whole, WellFormed]
  have hdouble : double.WellFormed := by simp [double, WellFormed]
  have hkeyed : (shape.json whole).Keyed := by
    change Json.Keyed (.object [("blockchain", .string "bitcoin"), ("network", .string "mainnet"),
      ("sub_network_identifier", .object [("network", .string "shard"),
        ("metadata", .object [("n", .number (.int 1))])])])
    simp
  constructor
  · have hlisted : Listed [whole] := ⟨by simpa using hwhole, List.pairwise_singleton _ _⟩
    have hsame : whole.same double = true := by decide +kernel
    have position : [whole, double, ⟨"", "", none⟩] = [whole] ++ double :: [⟨"", "", none⟩] := rfl
    exact ((checkNetworkList_first _).1 _).mpr (.repeated position hlisted hdouble ⟨whole, by simp, hsame⟩)
  · obtain ⟨-, hpasses, -⟩ := checkNetworkList_first ⟨[whole]⟩
    refine (hpasses (by simpa using hkeyed)).mpr ⟨by simpa using hwhole, fun i j hi hj hne => ?_⟩
    simp only [List.length_singleton] at hi hj
    omega

end LedgerQuery
