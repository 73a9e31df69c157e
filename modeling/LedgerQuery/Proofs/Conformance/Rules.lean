import LedgerQuery.Fetch.Operation
import LedgerQuery.Proofs.Conformance.Check

namespace LedgerQuery

open Checked

def NetworkIdentifier.WellFormed (n : NetworkIdentifier) : Prop :=
  n.blockchain ≠ "" ∧ n.network ≠ "" ∧ ∀ sub ∈ n.subNetwork, sub.network ≠ ""

def Version.WellFormed (v : Version) : Prop := v.node ≠ "" ∧ v.middleware ≠ some ""

def Options.WellFormed (o : Options) : Prop :=
  (∃ status ∈ o.operationStatuses, status.successful = true) ∧ o.operationTypes ≠ []

def NodeError.WellFormed (e : NodeError) : Prop := 0 ≤ e.code ∧ e.message ≠ ""

def BlockIdentifier.WellFormed (b : BlockIdentifier) : Prop := 0 ≤ b.index ∧ b.hash ≠ ""

def AccountIdentifier.WellFormed (a : AccountIdentifier) : Prop :=
  a.address ≠ "" ∧ ∀ sub ∈ a.subAccount, sub.address ≠ ""

def Currency.WellFormed (c : Currency) : Prop := c.symbol ≠ "" ∧ 0 ≤ c.decimals

/-- A whole number in decimal digits, perhaps after a minus. -/
def WrittenInteger (s : String) : Prop :=
  ∃ digits, digits ≠ [] ∧ (∀ c ∈ digits, '0' ≤ c ∧ c ≤ '9') ∧
    (s.toList = digits ∨ s.toList = '-' :: digits)

theorem WrittenInteger.ne_empty {s : String} (h : WrittenInteger s) : s ≠ "" := by
  rintro rfl
  obtain ⟨digits, hne, -, heq | heq⟩ := h
  · exact hne heq.symm
  · cases heq

def Amount.WellFormed (a : Amount) : Prop := WrittenInteger a.value ∧ ∃ c ∈ a.currency, c.WellFormed

def Balance.WellFormed (b : Balance) : Prop :=
  (∃ a ∈ b.account, a.WellFormed) ∧ (∀ a ∈ b.amounts, a.WellFormed) ∧
    Distinct Currency.same (b.amounts.filterMap (·.currency))

/-- What the protocol asks of the answer to an operation. -/
def Operation.Conforms : (op : Operation) → op.Response → Prop
  | networkList, r => (∀ n ∈ r.networks, n.WellFormed) ∧ Distinct NetworkIdentifier.same r.networks
  | networkOptions, r =>
    (∃ v ∈ r.version, v.WellFormed) ∧
      ∃ o ∈ r.allow, o.WellFormed ∧ (∀ e ∈ o.errors, e.WellFormed) ∧ (o.errors.map (·.code)).Nodup
  | networkStatus, r =>
    (∃ b ∈ r.currentBlock, b.WellFormed) ∧ 0 ≤ r.currentTimestamp ∧ (∃ b ∈ r.genesisBlock, b.WellFormed) ∧
      ∀ p ∈ r.peers, p.peerId ≠ ""
  | accountBalance, r =>
    (∃ b ∈ r.block, b.WellFormed) ∧ (∀ b ∈ r.balances, b.WellFormed) ∧
      Distinct AccountIdentifier.same (r.balances.filterMap (·.account))

theorem checkNetwork_eq_ok {n : Option NetworkIdentifier} {m : NetworkIdentifier} :
    checkNetwork n = .ok m ↔ n = some m ∧ m.WellFormed := by
  simp [checkNetwork, ensure_eq_ok, NetworkIdentifier.WellFormed, Option.all_eq_true]

theorem checkVersion_eq_ok {v : Option Version} {u : Version} :
    checkVersion v = .ok u ↔ v = some u ∧ u.WellFormed := by
  simp [checkVersion, ensure_eq_ok, Version.WellFormed]

theorem checkOptions_eq_ok {o : Option Options} {p : Options} :
    checkOptions o = .ok p ↔ o = some p ∧ p.WellFormed := by
  have hnonempty : (∃ s ∈ p.operationStatuses, s.successful = true) → p.operationStatuses ≠ [] := by
    rintro ⟨s, hs, -⟩
    exact List.ne_nil_of_mem hs
  simp only [checkOptions, bind_eq_ok, present_eq_ok, ensure_eq_ok, List.any_eq_true, pure_eq_ok,
    Options.WellFormed]
  constructor
  · rintro ⟨a, ha, -, -, -, hsuccessful, -, htypes, rfl⟩
    exact ⟨ha, hsuccessful, htypes⟩
  · rintro ⟨ho, hsuccessful, htypes⟩
    exact ⟨p, ho, (), hnonempty hsuccessful, (), hsuccessful, (), htypes, rfl⟩

theorem checkNodeError_eq_ok {e : Option NodeError} {f : NodeError} :
    checkNodeError e = .ok f ↔ e = some f ∧ f.WellFormed := by
  simp [checkNodeError, ensure_eq_ok, NodeError.WellFormed]

theorem checkBlock_eq_ok {b : Option BlockIdentifier} {c : BlockIdentifier} :
    checkBlock b = .ok c ↔ b = some c ∧ c.WellFormed := by
  simp [checkBlock, ensure_eq_ok, BlockIdentifier.WellFormed]

theorem checkAccount_eq_ok {a : Option AccountIdentifier} {c : AccountIdentifier} :
    checkAccount a = .ok c ↔ a = some c ∧ c.WellFormed := by
  simp [checkAccount, ensure_eq_ok, AccountIdentifier.WellFormed, Option.all_eq_true]

theorem checkCurrency_eq_ok {c : Option Currency} {d : Currency} :
    checkCurrency c = .ok d ↔ c = some d ∧ d.WellFormed := by
  simp [checkCurrency, ensure_eq_ok, Currency.WellFormed]

theorem isDigit_iff {c : Char} : c.isDigit = true ↔ '0' ≤ c ∧ c ≤ '9' := by
  simp [Char.isDigit, Char.le_def]

theorem isInteger_iff {s : String} : isInteger s = true ↔ WrittenInteger s := by
  have hminus : ¬('0' ≤ '-' ∧ '-' ≤ '9') := by decide
  cases hs : s.toList with
  | nil => simp [isInteger, WrittenInteger, hs]
  | cons c cs =>
      by_cases hc : c = '-'
      · subst hc
        simp only [isInteger, hs, WrittenInteger, List.all_eq_true, isDigit_iff, decide_eq_true_eq]
        constructor
        · rintro ⟨hne, hdigits⟩
          exact ⟨cs, hne, hdigits, .inr rfl⟩
        · rintro ⟨digits, hne, hdigits, rfl | heq⟩
          · exact absurd (hdigits '-' (by simp)) hminus
          · obtain ⟨-, rfl⟩ := List.cons.inj heq
            exact ⟨hne, hdigits⟩
      · have hint : isInteger s = true ↔ ∀ d ∈ c :: cs, '0' ≤ d ∧ d ≤ '9' := by
          simp [isInteger, hs, hc, isDigit_iff]
        rw [hint]
        constructor
        · intro hdigits
          exact ⟨c :: cs, by simp, hdigits, .inl hs⟩
        · rintro ⟨digits, -, hdigits, heq | heq⟩
          · rwa [← hs, heq]
          · rw [hs] at heq
            exact absurd (List.cons.inj heq).1 hc

theorem checkAmount_eq_ok {a : Option Amount} {c : Currency} :
    checkAmount a = .ok c ↔ ∃ b, a = some b ∧ b.WellFormed ∧ b.currency = some c := by
  simp only [checkAmount, bind_eq_ok, present_eq_ok, ensure_eq_ok, isInteger_iff, checkCurrency_eq_ok,
    Amount.WellFormed]
  constructor
  · rintro ⟨b, hb, -, -, -, hvalue, hc, hwell⟩
    exact ⟨b, hb, ⟨hvalue, c, hc, hwell⟩, hc⟩
  · rintro ⟨b, hb, ⟨hvalue, d, hd, hwell⟩, hc⟩
    rw [Option.mem_def, hc] at hd
    cases hd
    exact ⟨b, hb, (), hvalue.ne_empty, (), hvalue, hc, hwell⟩

theorem amounts_pass {amounts : List Amount} :
    (∃ cs, distinct (checkAmount ∘ some) Currency.same .repeatedCurrency [] amounts = .ok cs) ↔
      (∀ a ∈ amounts, a.WellFormed) ∧ Distinct Currency.same (amounts.filterMap (·.currency)) := by
  refine distinct_passes (fun a c => ?_) (fun a ha => ?_)
  · simp [checkAmount_eq_ok]
  · obtain ⟨-, c, hc, -⟩ := ha
    exact ⟨c, hc⟩

theorem checkBalance_eq_ok {b : Option Balance} {a : AccountIdentifier} :
    checkBalance b = .ok a ↔ ∃ c, b = some c ∧ c.WellFormed ∧ c.account = some a := by
  simp only [checkBalance, bind_eq_ok, present_eq_ok, checkAccount_eq_ok, pure_eq_ok, Balance.WellFormed]
  constructor
  · rintro ⟨c, hc, account, ⟨haccount, hwell⟩, currencies, hamounts, rfl⟩
    obtain ⟨hall, hdistinct⟩ := amounts_pass.mp ⟨currencies, hamounts⟩
    exact ⟨c, hc, ⟨⟨account, haccount, hwell⟩, hall, hdistinct⟩, haccount⟩
  · rintro ⟨c, hc, ⟨⟨account, haccount, hwell⟩, hall, hdistinct⟩, ha⟩
    obtain ⟨currencies, hamounts⟩ := amounts_pass.mpr ⟨hall, hdistinct⟩
    rw [Option.mem_def, ha] at haccount
    cases haccount
    exact ⟨c, hc, a, ⟨ha, hwell⟩, currencies, hamounts, rfl⟩

theorem balances_pass {balances : List Balance} {accounts : List AccountIdentifier} :
    (balances.map some).mapM checkBalance = .ok accounts ↔
      (∀ b ∈ balances, b.WellFormed) ∧ accounts = balances.filterMap (·.account) := by
  have hcheck (b : Balance) (a : AccountIdentifier) :
      (checkBalance ∘ some) b = .ok a ↔ b.WellFormed ∧ b.account = some a := by
    simp [checkBalance_eq_ok]
  have hget (b : Balance) (hb : b.WellFormed) : ∃ a, b.account = some a := by
    obtain ⟨⟨a, ha, -⟩, -⟩ := hb
    exact ⟨a, ha⟩
  rw [mapM_eq_ok, List.forall₂_map_left_iff]
  exact forall₂_iff hcheck hget

theorem networks_pass {networks : List NetworkIdentifier} :
    (∃ ns, distinct (checkNetwork ∘ some) NetworkIdentifier.same .repeatedNetwork [] networks = .ok ns) ↔
      (∀ n ∈ networks, n.WellFormed) ∧ Distinct NetworkIdentifier.same networks := by
  have hcheck (n m : NetworkIdentifier) :
      (checkNetwork ∘ some) n = .ok m ↔ n.WellFormed ∧ some n = some m := by
    rw [Function.comp_apply, checkNetwork_eq_ok]
    constructor
    · rintro ⟨hm, hwell⟩
      cases hm
      exact ⟨hwell, rfl⟩
    · rintro ⟨hwell, hm⟩
      cases hm
      exact ⟨rfl, hwell⟩
  rw [distinct_passes hcheck (fun n _ => ⟨n, rfl⟩), List.filterMap_some]

theorem accounts_pass {accounts : List AccountIdentifier} :
    (∃ as, distinct .ok AccountIdentifier.same .repeatedAccount [] accounts = .ok as) ↔
      Distinct AccountIdentifier.same accounts := by
  have hcheck (a b : AccountIdentifier) : (.ok a : Checked AccountIdentifier) = .ok b ↔ True ∧ some a = some b := by
    simp
  rw [distinct_passes hcheck (fun a _ => ⟨a, rfl⟩), List.filterMap_some]
  simp

theorem checkCatalog_eq_ok {errors : List NodeError} :
    checkCatalog (errors.map some) = .ok () ↔
      (∀ e ∈ errors, e.WellFormed) ∧ (errors.map (·.code)).Nodup := by
  have hcheck (e : Option NodeError) (f : NodeError) :
      checkNodeError e = .ok f ↔ (∃ g ∈ e, g.WellFormed) ∧ id e = some f := by
    rw [checkNodeError_eq_ok]
    constructor
    · rintro ⟨rfl, hwell⟩
      exact ⟨⟨f, rfl, hwell⟩, rfl⟩
    · rintro ⟨⟨g, hg, hwell⟩, he⟩
      cases he
      cases hg
      exact ⟨rfl, hwell⟩
  have hcodes : Distinct (fun e f : NodeError => e.code == f.code) errors ↔ (errors.map (·.code)).Nodup := by
    simp [Distinct, List.Nodup, List.pairwise_map]
  have hpasses : checkCatalog (errors.map some) = .ok () ↔ ∃ es, distinct checkNodeError (·.code == ·.code)
      (fun e => .repeatedCode e.code) [] (errors.map some) = .ok es := by
    simp only [checkCatalog, bind_eq_ok, pure_eq_ok, and_true]
  rw [hpasses, distinct_passes hcheck fun e hwell => hwell.imp fun g hg => hg.1, List.filterMap_map, Function.id_comp,
    List.filterMap_some, hcodes]
  simp

theorem checkPeer_passes (p : Peer) : ((checkPeer (some p)).map fun _ => ()) = .ok () ↔ p.peerId ≠ "" := by
  simp [checkPeer, ensure_eq_ok]

/-- An answer passes the check of its operation exactly if it keeps the rules. -/
theorem validate_eq_ok {op : Operation} {r : op.Response} :
    op.validate (some r) = .ok () ↔ op.Conforms r := by
  cases op with
  | networkList =>
      rw [Operation.Conforms, ← networks_pass]
      simp [Operation.validate, checkNetworkListResponse]
  | networkOptions =>
      simp only [Operation.validate, checkNetworkOptionsResponse, Operation.Conforms, bind_eq_ok, present_eq_ok,
        checkVersion_eq_ok, checkOptions_eq_ok, checkCatalog_eq_ok]
      constructor
      · rintro ⟨_, ⟨⟩, v, hv, o, ⟨ho, hwell⟩, hcatalog⟩
        exact ⟨⟨v, hv⟩, o, ho, hwell, hcatalog⟩
      · rintro ⟨⟨v, hv⟩, o, ho, hwell, hcatalog⟩
        exact ⟨r, rfl, v, hv, o, ⟨ho, hwell⟩, hcatalog⟩
  | networkStatus =>
      simp only [Operation.validate, checkNetworkStatusResponse, Operation.Conforms, bind_eq_ok, present_eq_ok,
        checkBlock_eq_ok, checkTimestamp, ensure_eq_ok, forM_eq_ok]
      constructor
      · rintro ⟨_, ⟨⟩, b, hb, -, htime, g, hg, hpeers⟩
        refine ⟨⟨b, hb⟩, htime, ⟨g, hg⟩, fun p hp => ?_⟩
        exact (checkPeer_passes p).mp (hpeers p hp)
      · rintro ⟨⟨b, hb⟩, htime, ⟨g, hg⟩, hpeers⟩
        exact ⟨r, rfl, b, hb, (), htime, g, hg, fun p hp => (checkPeer_passes p).mpr (hpeers p hp)⟩
  | accountBalance =>
      simp only [Operation.validate, checkAccountBalanceResponse, checkAccountBalance, Operation.Conforms,
        bind_eq_ok, present_eq_ok, checkBlock_eq_ok, balances_pass, pure_eq_ok, and_true]
      constructor
      · rintro ⟨_, ⟨⟩, b, hb, accounts, ⟨hall, rfl⟩, hdistinct⟩
        exact ⟨⟨b, hb⟩, hall, accounts_pass.mp hdistinct⟩
      · rintro ⟨⟨b, hb⟩, hall, hdistinct⟩
        exact ⟨r, rfl, b, hb, _, ⟨hall, rfl⟩, accounts_pass.mpr hdistinct⟩

end LedgerQuery
