import LedgerQuery.Proofs.Conformance.Catalog
import LedgerQuery.Proofs.Json.Spelling
import LedgerQuery.Proofs.Record.Keyed

namespace LedgerQuery

open Json Checked

section

variable {α β : Type} {R : α → α → Prop} {xs ys : List α}

theorem forall_iff_of_forall₂ {P Q : α → Prop} (h : List.Forall₂ R xs ys) (hR : ∀ a b, R a b → (P a ↔ Q b)) :
    (∀ x ∈ xs, P x) ↔ ∀ y ∈ ys, Q y := by
  induction h with
  | nil => exact ⟨fun _ => List.forall_mem_nil _, fun _ => List.forall_mem_nil _⟩
  | cons hab _ ih => rw [List.forall_mem_cons, List.forall_mem_cons, hR _ _ hab, ih]

theorem exists_iff_of_rel {P : α → Prop} {a b : Option α} (h : Option.Rel R a b) (hP : ∀ x y, R x y → (P x ↔ P y)) :
    (∃ x ∈ a, P x) ↔ ∃ y ∈ b, P y := by
  cases h with
  | none => exact Iff.rfl
  | some hxy => simp [hP _ _ hxy]

theorem forall_iff_of_rel {P : α → Prop} {a b : Option α} (h : Option.Rel R a b) (hP : ∀ x y, R x y → (P x ↔ P y)) :
    (∀ x ∈ a, P x) ↔ ∀ y ∈ b, P y := by
  cases h with
  | none => exact Iff.rfl
  | some hxy => simp [hP _ _ hxy]

theorem distinct_iff_of_forall₂ {same : α → α → Bool} (h : List.Forall₂ R xs ys)
    (same_eq : ∀ a a' b b', R a a' → R b b' → same a b = same a' b') : Distinct same xs ↔ Distinct same ys := by
  induction h with
  | nil => exact Iff.rfl
  | @cons a b as bs hab hrest ih =>
      have hhead : (∀ x ∈ as, same a x = false) ↔ ∀ y ∈ bs, same b y = false :=
        forall_iff_of_forall₂ hrest fun x y hxy => by rw [same_eq a b x y hab hxy]
      simp only [Distinct, List.pairwise_cons] at ih ⊢
      rw [hhead, ih]

theorem distinct_iff_of_perm {same : α → α → Bool} (perm : xs.Perm ys)
    (symmetric : ∀ a ∈ xs, ∀ b ∈ xs, same a b = same b a) : Distinct same xs ↔ Distinct same ys := by
  have both (a b : α) (ha : a ∈ xs) (hb : b ∈ xs) : same a b = false ↔ same a b = false ∧ same b a = false := by
    rw [symmetric b hb a ha, and_self]
  have hxs : Distinct same xs ↔ xs.Pairwise fun a b => same a b = false ∧ same b a = false :=
    List.Pairwise.iff_of_mem fun ha hb => both _ _ ha hb
  have hys : Distinct same ys ↔ ys.Pairwise fun a b => same a b = false ∧ same b a = false :=
    List.Pairwise.iff_of_mem fun ha hb => both _ _ (perm.mem_iff.mpr ha) (perm.mem_iff.mpr hb)
  rw [hxs, hys]
  exact perm.pairwise_iff fun h => h.symm

def Shuffled (R : α → α → Prop) : List α → List α → Prop := Relation.Comp List.Perm (List.Forall₂ R)

namespace Shuffled

theorem forall_iff {P : α → Prop} (h : Shuffled R xs ys) (hP : ∀ a b, R a b → (P a ↔ P b)) :
    (∀ x ∈ xs, P x) ↔ ∀ y ∈ ys, P y := by
  obtain ⟨zs, perm, hall⟩ := h
  rw [← forall_iff_of_forall₂ hall hP]
  simp only [perm.mem_iff]

theorem filterMap {S : β → β → Prop} (get : α → Option β) (h : Shuffled R xs ys)
    (hget : ∀ a b, R a b → Option.Rel S (get a) (get b)) : Shuffled S (xs.filterMap get) (ys.filterMap get) := by
  obtain ⟨zs, perm, hall⟩ := h
  exact ⟨zs.filterMap get, perm.filterMap get, List.rel_filterMap (fun a b => hget a b) hall⟩

theorem distinct_iff {same : α → α → Bool} (h : Shuffled R xs ys)
    (symmetric : ∀ a ∈ xs, ∀ b ∈ xs, same a b = same b a)
    (same_eq : ∀ a a' b b', R a a' → R b b' → same a b = same a' b') : Distinct same xs ↔ Distinct same ys := by
  obtain ⟨zs, perm, hall⟩ := h
  rw [distinct_iff_of_perm perm symmetric, distinct_iff_of_forall₂ hall same_eq]

theorem imp_of_mem {S : α → α → Prop} {P : α → Prop} (h : Shuffled R xs ys) (hP : ∀ x ∈ xs, P x)
    (imp : ∀ a b, P a → R a b → S a b) : Shuffled S xs ys := by
  obtain ⟨zs, perm, hall⟩ := h
  refine ⟨zs, perm, ?_⟩
  have hzs : ∀ z ∈ zs, P z := fun z hz => hP z (perm.mem_iff.mpr hz)
  clear perm hP
  induction hall with
  | nil => exact .nil
  | cons hab _ ih =>
      obtain ⟨ha, hrest⟩ := List.forall_mem_cons.mp hzs
      exact .cons (imp _ _ ha hab) (ih hrest)

end Shuffled

namespace Shape

variable {s : Shape α} {same : α → α → Bool}

/-- Values of a shape, one of which is the other written in another way. -/
def Respelled (s : Shape α) (a b : α) : Prop := Json.Respelled (s.json a) (s.json b)

/-- Values of a shape that say the same. -/
def Matches (s : Shape α) (a b : α) : Prop := Json.Matches (s.json a) (s.json b)

theorem Matches.optional (object : ∀ a, ∃ ms, s.json a = .object ms) {a b : Option α}
    (h : Json.Matches (s.optional.json a) (s.optional.json b)) : Option.Rel s.Matches a b := by
  cases a with
  | none =>
      cases b with
      | none => exact .none
      | some b =>
          obtain ⟨ms, hms⟩ := object b
          have hnormal : Json.null.normal = (s.json b).normal := h.normal_eq
          rw [hms] at hnormal
          cases hnormal
  | some a =>
      cases b with
      | none =>
          obtain ⟨ms, hms⟩ := object a
          have hnormal : (s.json a).normal = Json.null.normal := h.normal_eq
          rw [hms] at hnormal
          cases hnormal
      | some b => exact .some h

theorem Decides.same_eq_of_matches (h : s.Decides same) {a a' b b' : α} (ha : s.Matches a a') (hb : s.Matches b b') :
    same a b = same a' b' := by
  rw [← h.same_eq, ← h.same_eq, ha.same_eq hb]

theorem Decides.symmetric (h : s.Decides same) {a b : α} (ha : (s.json a).Keyed) (hb : (s.json b).Keyed) :
    same a b = same b a := by
  have structural := Structural.of_same h.same_eq
  exact Bool.eq_iff_iff.mpr ⟨structural.symmetric a b ha hb, structural.symmetric b a hb ha⟩

theorem Decides.distinct_iff (h : s.Decides same) (hxy : Shuffled s.Matches xs ys)
    (keyed : ∀ x ∈ xs, (s.json x).Keyed) : Distinct same xs ↔ Distinct same ys :=
  hxy.distinct_iff (fun a ha b hb => h.symmetric (keyed a ha) (keyed b hb)) fun _ _ _ _ => h.same_eq_of_matches

theorem Respelled.matches {a b : α} (h : s.Respelled a b) (keyed : (s.json a).Keyed) : s.Matches a b :=
  Json.Respelled.matches h keyed

end Shape

theorem Shuffled.matches {s : Shape α} (h : Shuffled s.Respelled xs ys) (keyed : ∀ x ∈ xs, (s.json x).Keyed) :
    Shuffled s.Matches xs ys := h.imp_of_mem keyed fun _ _ hx hxy => hxy.matches hx

end

theorem Currency.wellFormed_iff {c d : Currency} (h : Currency.shape.Matches c d) : c.WellFormed ↔ d.WellFormed := by
  have hsymbol : c.symbol = d.symbol := (h.member "symbol" rfl rfl).string_eq
  have hdecimals : c.decimals = d.decimals := (h.member "decimals" rfl rfl).int_eq
  rw [Currency.WellFormed, Currency.WellFormed, hsymbol, hdecimals]

theorem Amount.rel_currency {a b : Amount} (h : Amount.shape.Matches a b) :
    Option.Rel Currency.shape.Matches a.currency b.currency :=
  Shape.Matches.optional (fun _ => ⟨_, rfl⟩) (h.member "currency" rfl rfl)

theorem Amount.wellFormed_iff {a b : Amount} (h : Amount.shape.Matches a b) : a.WellFormed ↔ b.WellFormed := by
  have hvalue : a.value = b.value := (h.member "value" rfl rfl).string_eq
  rw [Amount.WellFormed, Amount.WellFormed, hvalue,
    exists_iff_of_rel (Amount.rel_currency h) fun _ _ => Currency.wellFormed_iff]

theorem AccountIdentifier.wellFormed_iff {a b : AccountIdentifier} (h : AccountIdentifier.shape.Matches a b) :
    a.WellFormed ↔ b.WellFormed := by
  have haddress : a.address = b.address := (h.member "address" rfl rfl).string_eq
  have hsub : Option.Rel SubAccountIdentifier.shape.Matches a.subAccount b.subAccount :=
    Shape.Matches.optional (fun _ => ⟨_, rfl⟩) (h.member "sub_account" rfl rfl)
  rw [AccountIdentifier.WellFormed, AccountIdentifier.WellFormed, haddress]
  refine and_congr_right fun _ => forall_iff_of_rel hsub fun x y hxy => ?_
  have hsubAddress : x.address = y.address := (hxy.member "address" rfl rfl).string_eq
  rw [hsubAddress]

theorem NetworkIdentifier.wellFormed_iff {n m : NetworkIdentifier} (h : NetworkIdentifier.shape.Matches n m) :
    n.WellFormed ↔ m.WellFormed := by
  have hblockchain : n.blockchain = m.blockchain := (h.member "blockchain" rfl rfl).string_eq
  have hnetwork : n.network = m.network := (h.member "network" rfl rfl).string_eq
  have hsub : Option.Rel SubNetworkIdentifier.shape.Matches n.subNetwork m.subNetwork :=
    Shape.Matches.optional (fun _ => ⟨_, rfl⟩) (h.member "sub_network_identifier" rfl rfl)
  rw [NetworkIdentifier.WellFormed, NetworkIdentifier.WellFormed, hblockchain, hnetwork]
  refine and_congr_right fun _ => and_congr_right fun _ => forall_iff_of_rel hsub fun x y hxy => ?_
  have hsubNetwork : x.network = y.network := (hxy.member "network" rfl rfl).string_eq
  rw [hsubNetwork]

theorem NodeError.code_eq {e f : NodeError} (h : NodeError.shape.Matches e f) : e.code = f.code :=
  (h.member "code" rfl rfl).int_eq

theorem NodeError.wellFormed_iff {e f : NodeError} (h : NodeError.shape.Matches e f) :
    e.WellFormed ↔ f.WellFormed := by
  have hmessage : e.message = f.message := (h.member "message" rfl rfl).string_eq
  rw [NodeError.WellFormed, NodeError.WellFormed, NodeError.code_eq h, hmessage]

/-- A balance written in another way: its amounts in any order, and each of them, as well as the account, written in
another way. -/
structure Balance.Respelled (b c : Balance) : Prop where
  account : AccountIdentifier.shape.optional.Respelled b.account c.account
  amounts : Shuffled Amount.shape.Respelled b.amounts c.amounts

namespace Balance.Respelled

variable {b c : Balance}

theorem rel_account (h : b.Respelled c) (keyed : (Balance.shape.json b).Keyed) :
    Option.Rel AccountIdentifier.shape.Matches b.account c.account :=
  Shape.Matches.optional AccountIdentifier.decides.object (h.account.matches (keyed.member "account_identifier" rfl))

theorem wellFormed_iff (h : b.Respelled c) (keyed : (Balance.shape.json b).Keyed) : b.WellFormed ↔ c.WellFormed := by
  have haccount := h.rel_account keyed
  have hkeyed : ∀ a ∈ b.amounts, (Amount.shape.json a).Keyed := Shape.keyed_of_list (keyed.member "amounts" rfl)
  have hamounts := h.amounts.matches hkeyed
  have hcurrencies : Distinct Currency.same (b.amounts.filterMap (·.currency)) ↔
      Distinct Currency.same (c.amounts.filterMap (·.currency)) := by
    refine Currency.decides.distinct_iff (hamounts.filterMap _ fun _ _ => Amount.rel_currency) ?_
    intro d hd
    obtain ⟨a, ha, hcurrency⟩ := List.mem_filterMap.mp hd
    have hkeyed : (Currency.shape.optional.json a.currency).Keyed := (hkeyed a ha).member "currency" rfl
    rwa [hcurrency] at hkeyed
  rw [WellFormed, WellFormed, exists_iff_of_rel haccount fun _ _ => AccountIdentifier.wellFormed_iff,
    hamounts.forall_iff fun _ _ => Amount.wellFormed_iff, hcurrencies]

end Balance.Respelled

/-- An answer with its balances in any order, and each written in another way. -/
structure AccountBalanceResponse.Respelled (r t : AccountBalanceResponse) : Prop where
  block : r.block = t.block
  balances : Shuffled Balance.Respelled r.balances t.balances

theorem checkAccountBalance_respelled {r t : AccountBalanceResponse} (h : r.Respelled t)
    (keyed : (AccountBalanceResponse.shape.json r).Keyed) :
    checkAccountBalanceResponse (some r) = .ok () ↔ checkAccountBalanceResponse (some t) = .ok () := by
  have hkeyed : ∀ b ∈ r.balances, (Balance.shape.json b).Keyed := Shape.keyed_of_list (keyed.member "balances" rfl)
  have hbalances := h.balances.imp_of_mem hkeyed fun _ _ hb hbc => And.intro hb hbc
  have haccounts : Distinct AccountIdentifier.same (r.balances.filterMap (·.account)) ↔
      Distinct AccountIdentifier.same (t.balances.filterMap (·.account)) := by
    refine AccountIdentifier.decides.distinct_iff (hbalances.filterMap _ fun _ _ hbc => hbc.2.rel_account hbc.1) ?_
    intro a ha
    obtain ⟨b, hb, haccount⟩ := List.mem_filterMap.mp ha
    have hkeyed : (AccountIdentifier.shape.optional.json b.account).Keyed :=
      (hkeyed b hb).member "account_identifier" rfl
    rwa [haccount] at hkeyed
  change Operation.accountBalance.validate (some r) = _ ↔ Operation.accountBalance.validate (some t) = _
  rw [validate_eq_ok, validate_eq_ok, Operation.Conforms, Operation.Conforms, h.block,
    hbalances.forall_iff fun _ _ hbc => hbc.2.wellFormed_iff hbc.1, haccounts]

theorem checkNetworkList_respelled {r t : NetworkListResponse}
    (h : Shuffled NetworkIdentifier.shape.Respelled r.networks t.networks)
    (keyed : (NetworkListResponse.shape.json r).Keyed) :
    checkNetworkListResponse (some r) = .ok () ↔ checkNetworkListResponse (some t) = .ok () := by
  have hkeyed : ∀ n ∈ r.networks, (NetworkIdentifier.shape.json n).Keyed :=
    Shape.keyed_of_list (keyed.member "network_identifiers" rfl)
  have hnetworks := h.matches hkeyed
  change Operation.networkList.validate (some r) = _ ↔ Operation.networkList.validate (some t) = _
  rw [validate_eq_ok, validate_eq_ok, Operation.Conforms, Operation.Conforms,
    hnetworks.forall_iff fun _ _ => NetworkIdentifier.wellFormed_iff,
    NetworkIdentifier.decides.distinct_iff hnetworks hkeyed]

theorem checkCatalog_respelled {errors errors' : List (Option NodeError)}
    (h : Shuffled NodeError.shape.optional.Respelled errors errors')
    (keyed : ∀ e ∈ errors, (NodeError.shape.optional.json e).Keyed) :
    checkCatalog errors = .ok () ↔ checkCatalog errors' = .ok () := by
  have herrors : Shuffled (Option.Rel NodeError.shape.Matches) errors errors' :=
    h.imp_of_mem keyed fun _ _ he hef => Shape.Matches.optional (fun _ => ⟨_, rfl⟩) (hef.matches he)
  have hsound : (∀ e ∈ errors, NodeError.faults e = []) ↔ ∀ e ∈ errors', NodeError.faults e = [] := by
    refine herrors.forall_iff fun e f hef => ?_
    cases hef with
    | none => exact Iff.rfl
    | some hef => rw [NodeError.faults_eq_nil, NodeError.faults_eq_nil, NodeError.wellFormed_iff hef]
  have hdistinct : Distinct (·.code == ·.code) (errors.filterMap id) ↔
      Distinct (·.code == ·.code) (errors'.filterMap id) := by
    have hpresent : Shuffled NodeError.shape.Matches (errors.filterMap id) (errors'.filterMap id) :=
      herrors.filterMap id fun _ _ hef => hef
    refine hpresent.distinct_iff (fun _ _ _ _ => BEq.comm) fun e e' f f' he hf => ?_
    rw [NodeError.code_eq he, NodeError.code_eq hf]
  rw [checkCatalog_ok_iff_cataloged, checkCatalog_ok_iff_cataloged, NodeError.cataloged_iff,
    NodeError.cataloged_iff, hsound, hdistinct]

/-- Whether an answer with balances, a list of networks or a catalog passes does not depend on how it is written. That
no object in them repeats a name is so for all that is read from text. -/
theorem verdict_of_respelled :
    (∀ r t : AccountBalanceResponse, (AccountBalanceResponse.shape.json r).Keyed → r.Respelled t →
      (checkAccountBalanceResponse (some r) = .ok () ↔ checkAccountBalanceResponse (some t) = .ok ())) ∧
    (∀ r t : NetworkListResponse, (NetworkListResponse.shape.json r).Keyed →
      Shuffled NetworkIdentifier.shape.Respelled r.networks t.networks →
      (checkNetworkListResponse (some r) = .ok () ↔ checkNetworkListResponse (some t) = .ok ())) ∧
    (∀ errors errors', (∀ e ∈ errors, (NodeError.shape.optional.json e).Keyed) →
      Shuffled NodeError.shape.optional.Respelled errors errors' →
      (checkCatalog errors = .ok () ↔ checkCatalog errors' = .ok ())) ∧
    ∀ text j, Json.read? text = some j →
      (∀ r, AccountBalanceResponse.shape.read j = .ok r → (AccountBalanceResponse.shape.json r).Keyed) ∧
      (∀ r, NetworkListResponse.shape.read j = .ok r → (NetworkListResponse.shape.json r).Keyed) ∧
      ∀ r, NetworkOptionsResponse.shape.read j = .ok r →
        ∀ o ∈ r.allow, ∀ e ∈ o.errors, (NodeError.shape.json e).Keyed := by
  refine ⟨fun _ _ keyed h => checkAccountBalance_respelled h keyed,
    fun _ _ keyed h => checkNetworkList_respelled h keyed, fun _ _ keyed h => checkCatalog_respelled h keyed, ?_⟩
  intro text j parses
  have hj : j.Keyed := Json.read?_keyed parses
  exact ⟨fun r => AccountBalanceResponse.tidy j r hj, fun r => NetworkListResponse.tidy j r hj,
    fun r => NetworkOptionsResponse.catalog_keyed hj⟩

theorem verdict_of_swapped :
    checkAccountBalanceResponse (some ⟨some ⟨1, "h"⟩,
      [⟨some ⟨"b", none, none⟩, []⟩,
        ⟨some ⟨"a", none, some [("l", .null), ("k", .number (.float 1.0))]⟩, []⟩]⟩) = .ok () ∧
    checkNetworkListResponse (some ⟨[⟨"x", "test", none⟩,
      ⟨"x", "main", some ⟨"s", some [("l", .null), ("k", .number (.float 1.0))]⟩⟩]⟩) = .ok () ∧
    checkCatalog [some ⟨2, "late", none, none⟩,
      some ⟨1, "busy", none, some [("l", .null), ("k", .number (.float 1.0))]⟩] = .ok () ∧
    ∀ j, Json.read? "{}" = some j → ∀ r, NetworkListResponse.shape.read j = .ok r →
      (NetworkListResponse.shape.json r).Keyed := by
  obtain ⟨balances, networks, catalogs, read⟩ := verdict_of_respelled
  have hrespelled : Json.Respelled (.object [("k", .number (.int 1)), ("l", .null)])
      (.object [("l", .null), ("k", .number (.float 1.0))]) := by
    have hkind : Respells (.number (.int 1)) (.number (.float 1.0)) := .kind (by decide +kernel)
    have hmember : Respells (.object [("k", .number (.int 1)), ("l", .null)])
        (.object [("k", .number (.float 1.0)), ("l", .null)]) := @Respells.member "k" _ _ [] [("l", .null)] hkind
    exact .head hmember (.single (.order (.swap _ _ _)))
  refine ⟨?_, ?_, ?_, fun j parses r => (read _ j parses).2.1 r⟩
  · refine (balances ⟨some ⟨1, "h"⟩, [⟨some ⟨"a", none, some [("k", .number (.int 1)), ("l", .null)]⟩, []⟩,
      ⟨some ⟨"b", none, none⟩, []⟩]⟩ _ ?_ ?_).mp rfl
    · simp [AccountBalanceResponse.json_eq, BlockIdentifier.json_eq, Balance.json_eq, AccountIdentifier.json_eq,
        Shape.json_list, Shape.json_none, Shape.json_some, Shape.json_metadata]
    · refine ⟨rfl, [_, _], .swap _ _ _, .cons ?_ (.cons ?_ .nil)⟩
      · exact ⟨.refl, [], .nil, .nil⟩
      · exact ⟨hrespelled.member [("address", .string "a"), ("sub_account", .null)] [], [], .nil, .nil⟩
  · refine (networks ⟨[⟨"x", "main", some ⟨"s", some [("k", .number (.int 1)), ("l", .null)]⟩⟩,
      ⟨"x", "test", none⟩]⟩ _ ?_ ?_).mp rfl
    · simp [NetworkListResponse.json_eq, NetworkIdentifier.json_eq, SubNetworkIdentifier.json_eq, Shape.json_list,
        Shape.json_none, Shape.json_some, Shape.json_metadata]
    · refine ⟨[_, _], .swap _ _ _, .cons .refl (.cons ?_ .nil)⟩
      have hsub : SubNetworkIdentifier.shape.Respelled ⟨"s", some [("k", .number (.int 1)), ("l", .null)]⟩
          ⟨"s", some [("l", .null), ("k", .number (.float 1.0))]⟩ := hrespelled.member [("network", .string "s")] []
      exact hsub.member [("blockchain", .string "x"), ("network", .string "main")] []
  · refine (catalogs [some ⟨1, "busy", none, some [("k", .number (.int 1)), ("l", .null)]⟩,
      some ⟨2, "late", none, none⟩] _ ?_ ?_).mp rfl
    · simp [NodeError.json_eq, Shape.json_none, Shape.json_some, Shape.json_metadata]
    · refine ⟨[_, _], .swap _ _ _, .cons .refl (.cons ?_ .nil)⟩
      exact hrespelled.member [("code", .number (.int 1)), ("message", .string "busy"), ("retriable", .null)] []

end LedgerQuery
