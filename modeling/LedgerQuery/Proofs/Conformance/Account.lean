import LedgerQuery.Proofs.Conformance.Order
import LedgerQuery.Proofs.Conformance.Rules

namespace LedgerQuery

open Checked

instance (s : String) : Decidable (WrittenInteger s) := decidable_of_iff _ isInteger_iff

def BlockIdentifier.faults : Option BlockIdentifier → List Violation
  | none => [.absent "BlockIdentifier"]
  | some b =>
    faultIf (b.index < 0) (.negative "BlockIdentifier.index" b.index) ++
      faultIf (b.hash = "") (.fieldMissing "BlockIdentifier.hash")

def AccountIdentifier.faults : Option AccountIdentifier → List Violation
  | none => [.absent "AccountIdentifier"]
  | some a =>
    faultIf (a.address = "") (.fieldMissing "AccountIdentifier.address") ++
      faultIf (∃ sub ∈ a.subAccount, sub.address = "") (.fieldMissing "AccountIdentifier.sub_account.address")

def Currency.faults : Option Currency → List Violation
  | none => [.absent "Amount.currency"]
  | some c =>
    faultIf (c.symbol = "") (.fieldMissing "Currency.symbol") ++
      faultIf (c.decimals < 0) (.negative "Currency.decimals" c.decimals)

def Amount.faults : Option Amount → List Violation
  | none => [.absent "Amount"]
  | some a =>
    faultIf (a.value = "") (.fieldMissing "Amount.value") ++
      (faultIf (¬WrittenInteger a.value) (.notInteger "Amount.value" a.value) ++ Currency.faults a.currency)

/-- The faults of the account, and then those of each amount, the last of which is that it repeats a currency. -/
def Balance.faults : Option Balance → List Violation
  | none => [.absent "Balance"]
  | some b =>
    AccountIdentifier.faults b.account ++
      distinctFaults (Amount.faults ∘ some) (·.currency) Currency.same .repeatedCurrency [] b.amounts

def Balance.accounts (balances : List (Option Balance)) : List AccountIdentifier :=
  balances.filterMap (·.bind (·.account))

theorem reports_checkBlock (block : Option BlockIdentifier) :
    Reports (checkBlock block) (BlockIdentifier.faults block) := by
  cases block with
  | none => exact rfl
  | some b =>
      refine (reports_ensure (by simp) _).bind fun _ _ => ?_
      exact (reports_ensure (by simp) _).bind_ok fun _ => b

theorem reports_checkAccount (account : Option AccountIdentifier) :
    Reports (checkAccount account) (AccountIdentifier.faults account) := by
  cases account with
  | none => exact rfl
  | some a =>
      refine (reports_ensure (by simp) _).bind fun _ _ => ?_
      refine (reports_ensure ?_ _).bind_ok fun _ => a
      simp [Option.all_eq_true]

theorem reports_checkCurrency (currency : Option Currency) :
    Reports (checkCurrency currency) (Currency.faults currency) := by
  cases currency with
  | none => exact rfl
  | some c =>
      refine (reports_ensure (by simp) _).bind fun _ _ => ?_
      exact (reports_ensure (by simp) _).bind_ok fun _ => c

theorem reports_checkAmount (amount : Option Amount) : Reports (checkAmount amount) (Amount.faults amount) := by
  cases amount with
  | none => exact rfl
  | some a =>
      refine (reports_ensure (by simp) _).bind fun _ _ => ?_
      exact (reports_ensure (by simp [isInteger_iff]) _).bind fun _ _ => reports_checkCurrency a.currency

theorem currency_of_checkAmount (a : Amount) (c : Currency) (h : (checkAmount ∘ some) a = .ok c) :
    a.currency = some c := by
  obtain ⟨b, hb, -, hc⟩ := checkAmount_eq_ok.mp h
  cases hb
  exact hc

theorem account_of_checkBalance (b : Option Balance) (a : AccountIdentifier) (h : checkBalance b = .ok a) :
    b.bind (·.account) = some a := by
  obtain ⟨c, rfl, -, ha⟩ := checkBalance_eq_ok.mp h
  exact ha

theorem reports_checkBalance (balance : Option Balance) :
    Reports (checkBalance balance) (Balance.faults balance) := by
  cases balance with
  | none => exact rfl
  | some b =>
      refine (reports_checkAccount b.account).bind fun account _ => ?_
      exact (reports_distinct (fun a => reports_checkAmount (some a)) currency_of_checkAmount [] b.amounts).bind_ok
        fun _ => account

/-- The violation of a balance that is met first: one of the block, whatever the entries are; else the first of
the first entry that has any, whether or not accounts come twice; else that of the first account that is the same
as an earlier one. -/
inductive Balance.FirstFault (block : Option BlockIdentifier) (balances : List (Option Balance)) :
    Violation → Prop
  | block {v : Violation} (first : (BlockIdentifier.faults block).head? = some v) : FirstFault block balances v
  | entry {before after : List (Option Balance)} {b : Option Balance} {v : Violation}
      (block_sound : BlockIdentifier.faults block = [])
      (position : balances = before ++ b :: after)
      (earlier : ∀ c ∈ before, faults c = [])
      (first : (faults b).head? = some v) : FirstFault block balances v
  | account {before after : List (Option Balance)} {b : Balance} {a : AccountIdentifier}
      (block_sound : BlockIdentifier.faults block = [])
      (entries_sound : ∀ c ∈ balances, faults c = [])
      (position : balances = before ++ some b :: after)
      (here : b.account = some a)
      (earlier : Distinct AccountIdentifier.same (accounts before))
      (again : ∃ c ∈ accounts before, c.same a = true) : FirstFault block balances (.repeatedAccount a)

def AccountIdentifier.repeats (accounts : List AccountIdentifier) : List Violation :=
  distinctFaults (fun _ => []) some same .repeatedAccount [] accounts

theorem reports_repeats (accounts : List AccountIdentifier) :
    Reports (distinct .ok AccountIdentifier.same .repeatedAccount [] accounts)
      (AccountIdentifier.repeats accounts) :=
  reports_distinct reports_ok (fun _ _ h => congrArg some (Except.ok.inj h)) [] accounts

theorem AccountIdentifier.repeats_eq_nil {accounts : List AccountIdentifier} :
    repeats accounts = [] ↔ Distinct same accounts := by
  rw [repeats, distinctFaults_eq_nil reports_ok fun _ _ h => congrArg some (Except.ok.inj h), List.filterMap_some]
  exact and_iff_right fun _ _ => rfl

theorem reports_checkAccountBalance (block : Option BlockIdentifier) (balances : List (Option Balance)) :
    Reports (checkAccountBalance block balances) (BlockIdentifier.faults block ++
      (balances.flatMap Balance.faults ++ AccountIdentifier.repeats (Balance.accounts balances))) := by
  refine (reports_checkBlock block).bind fun _ _ => ?_
  refine (reports_mapM reports_checkBalance balances).bind fun accounts haccounts => ?_
  obtain ⟨-, rfl⟩ := (mapM_eq_ok_of_reports reports_checkBalance account_of_checkBalance).mp haccounts
  exact (reports_repeats (Balance.accounts balances)).bind_ok fun _ => ()

theorem Balance.head?_repeats {balances : List (Option Balance)} {v : Violation} :
    (AccountIdentifier.repeats (accounts balances)).head? = some v ↔
      ∃ before after b a, balances = before ++ some b :: after ∧ b.account = some a ∧
        Distinct AccountIdentifier.same (accounts before) ∧ (∃ c ∈ accounts before, c.same a = true) ∧
          v = .repeatedAccount a := by
  have hfirst (as : List AccountIdentifier) (a : AccountIdentifier) :
      (repeatFaults some AccountIdentifier.same .repeatedAccount as a).head? = some v ↔
        (∃ c ∈ as, c.same a = true) ∧ v = .repeatedAccount a := by
    rw [repeatFaults, List.filterMap_some, head?_faultIf, eq_comm]
  rw [AccountIdentifier.repeats, head?_distinctFaults]
  constructor
  · rintro ⟨as, a, _, hsplit, has, hfault⟩
    obtain ⟨before, rest, rfl, rfl, hrest⟩ := List.filterMap_eq_append_iff.mp hsplit
    obtain ⟨skipped, entry, after, rfl, hskipped, hentry, -⟩ := List.filterMap_eq_cons_iff.mp hrest
    obtain ⟨b, rfl, ha⟩ := Option.bind_eq_some_iff.mp hentry
    -- Entries without an account, which stand between the others, are not compared.
    have haccounts : accounts (before ++ skipped) = accounts before := by
      rw [accounts, List.filterMap_append, List.filterMap_eq_nil_iff.mpr hskipped, List.append_nil]
      rfl
    obtain ⟨hagain, rfl⟩ := (hfirst _ a).mp hfault
    refine ⟨before ++ skipped, after, b, a, by simp, ha, ?_, ?_, rfl⟩
    · rw [haccounts]
      exact AccountIdentifier.repeats_eq_nil.mp has
    · rw [haccounts]
      exact hagain
  · rintro ⟨before, after, b, a, rfl, ha, hdistinct, hagain, rfl⟩
    exact ⟨accounts before, a, accounts after, by simp [accounts, ha],
      AccountIdentifier.repeats_eq_nil.mpr hdistinct, (hfirst _ a).mpr ⟨hagain, rfl⟩⟩

/-- A check of a balance fails with the violation that is met first, and passes if there is none. -/
theorem checkAccountBalance_first (block : Option BlockIdentifier) (balances : List (Option Balance)) :
    (∀ v, checkAccountBalance block balances = .error v ↔ Balance.FirstFault block balances v) ∧
      (checkAccountBalance block balances = .ok () ↔
        BlockIdentifier.faults block = [] ∧ (∀ b ∈ balances, Balance.faults b = []) ∧
          Distinct AccountIdentifier.same (Balance.accounts balances)) := by
  have hreports := reports_checkAccountBalance block balances
  constructor
  · intro v
    rw [hreports.error_iff, head?_append_eq_some, head?_append_eq_some, head?_flatMap_eq_some,
      Balance.head?_repeats, List.flatMap_eq_nil_iff]
    constructor
    · rintro (hblock | ⟨hblock, ⟨before, b, after, hsplit, hbefore, hb⟩ |
        ⟨hentries, before, after, b, a, hsplit, ha, hdistinct, hagain, rfl⟩⟩)
      · exact .block hblock
      · exact .entry hblock hsplit hbefore hb
      · exact .account hblock hentries hsplit ha hdistinct hagain
    · intro h
      cases h with
      | block first => exact .inl first
      | entry block_sound position earlier first =>
          exact .inr ⟨block_sound, .inl ⟨_, _, _, position, earlier, first⟩⟩
      | account block_sound entries_sound position here earlier again =>
          exact .inr ⟨block_sound, .inr ⟨entries_sound, _, _, _, _, position, here, earlier, again, rfl⟩⟩
  · have hok : checkAccountBalance block balances = .ok () ↔ ∃ u, checkAccountBalance block balances = .ok u :=
      ⟨fun h => ⟨(), h⟩, fun ⟨_, h⟩ => h⟩
    rw [hok, hreports.ok_iff, List.append_eq_nil_iff, List.append_eq_nil_iff, List.flatMap_eq_nil_iff,
      AccountIdentifier.repeats_eq_nil]

end LedgerQuery
