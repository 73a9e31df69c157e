import LedgerQuery.Text.LowerCase
import Mathlib.Data.List.Basic

namespace LedgerQuery.Text

/-- The texts are the same but for the case of letters. -/
def Alike (a b : String) : Prop := lower a = lower b

instance (a b : String) : Decidable (Alike a b) := inferInstanceAs (Decidable (_ = _))

theorem Alike.refl (a : String) : Alike a a := Eq.refl _

theorem Alike.symm {a b : String} (h : Alike a b) : Alike b a := Eq.symm h

/-- The characters that do not stay what they are by themselves. -/
def capitals : List CaseRun := ⟨0x130, 0x130, 1, 0⟩ :: ⟨0x3a3, 0x3a3, 1, 0⟩ :: caseRuns

namespace CaseRun

def small (r : CaseRun) : CaseRun := ⟨(r.first + r.shift).toNat, (r.last + r.shift).toNat, r.step, -r.shift⟩

def Valid (r : CaseRun) : Prop :=
  0 ≤ r.first + r.shift ∧ (r.last + r.shift < 0xd800 ∨ 0xdfff < r.first + r.shift ∧ r.last + r.shift < 0x110000)

def apart (r other : CaseRun) : Bool :=
  r.last.blt other.first || other.last.blt r.first ||
    (r.step == 2 || r.first == r.last) && other.step == 2 && r.first % 2 != other.first % 2

instance (r : CaseRun) : Decidable r.Valid := inferInstanceAs (Decidable (_ ∧ _))

variable {r other : CaseRun} {n : Nat}

theorem covers_iff : r.covers n = true ↔ r.first ≤ n ∧ n ≤ r.last ∧ (n - r.first) % r.step = 0 := by
  simp [covers, and_assoc]

theorem not_covers_of_apart (h : r.apart other = true) (hr : r.covers n = true) : other.covers n = false := by
  obtain ⟨hfirst, hlast, hstep⟩ := covers_iff.mp hr
  rw [Bool.eq_false_iff, Ne, covers_iff]
  rintro ⟨hfirst', hlast', hstep'⟩
  simp only [apart, Bool.or_eq_true, Bool.and_eq_true, Nat.blt_eq, beq_iff_eq, bne_iff_ne] at h
  obtain (hbefore | hbehind) | ⟨⟨htwo | hsole, htwo'⟩, hodd⟩ := h
  · omega
  · omega
  · rw [htwo] at hstep
    rw [htwo'] at hstep'
    omega
  · rw [htwo'] at hstep'
    omega

theorem small_covers (valid : r.Valid) (h : r.covers n = true) : r.small.covers (n + r.shift).toNat = true := by
  obtain ⟨hfirst, hlast, hstep⟩ := covers_iff.mp h
  obtain ⟨hpos, -⟩ := valid
  have hdist : (n + r.shift).toNat - (r.first + r.shift).toNat = n - r.first := by omega
  rw [covers_iff]
  dsimp only [small]
  rw [hdist]
  exact ⟨by omega, by omega, hstep⟩

theorem isValidChar_of_covers (valid : r.Valid) (h : r.covers n = true) : (n + r.shift).toNat.isValidChar := by
  obtain ⟨hfirst, hlast, -⟩ := covers_iff.mp h
  obtain ⟨hpos, hlow | ⟨hhigh, hmax⟩⟩ := valid
  · exact .inl (by omega)
  · exact .inr ⟨by omega, by omega⟩

theorem valid_of_mem : ∀ r ∈ caseRuns, r.Valid := by decide +kernel

theorem apart_of_mem (hr : r ∈ caseRuns) (hother : other ∈ capitals) : r.small.apart other = true := by
  have hall : (caseRuns.all fun r => capitals.all r.small.apart) = true := by decide +kernel
  exact List.all_eq_true.mp (List.all_eq_true.mp hall r hr) other hother

end CaseRun

/-- No capital: a character that lower casing leaves as it is, wherever it stands. -/
def IsSmall (c : Char) : Prop := ∀ r ∈ capitals, r.covers c.toNat = false

instance (c : Char) : Decidable (IsSmall c) :=
  inferInstanceAs (Decidable (∀ r ∈ capitals, r.covers c.toNat = false))

variable {c e : Char} {before cs : List Char}

theorem isSmall_iff : IsSmall c ↔
    c.toNat ≠ 0x130 ∧ c.toNat ≠ 0x3a3 ∧ ∀ r ∈ caseRuns, r.covers c.toNat = false := by
  have hsole (n : Nat) : CaseRun.covers ⟨n, n, 1, 0⟩ c.toNat = false ↔ c.toNat ≠ n := by
    rw [Bool.eq_false_iff, Ne, CaseRun.covers_iff]
    dsimp only
    omega
  rw [IsSmall, capitals, List.forall_mem_cons, List.forall_mem_cons, hsole, hsole]

theorem lowerChar_of_isSmall (h : IsSmall c) : lowerChar c = [c] := by
  obtain ⟨hdotted, -, hruns⟩ := isSmall_iff.mp h
  have hnone : caseRuns.find? (·.covers c.toNat) = none :=
    List.find?_eq_none.mpr fun r hr => Bool.eq_false_iff.mp (hruns r hr)
  rw [lowerChar, if_neg hdotted, hnone]

theorem lowerAfter_of_isSmall (h : ∀ c ∈ cs, IsSmall c) : lowerAfter before cs = cs := by
  induction cs generalizing before with
  | nil => rfl
  | cons c cs ih =>
      obtain ⟨hc, hcs⟩ := List.forall_mem_cons.mp h
      rw [lowerAfter, if_neg (isSmall_iff.mp hc).2.1, lowerChar_of_isSmall hc, ih hcs]
      rfl

theorem isSmall_lowerChar (hsigma : c.toNat ≠ 0x3a3) (h : e ∈ lowerChar c) : IsSmall e := by
  rw [lowerChar] at h
  split at h
  · have hi : IsSmall 'i' := by decide +kernel
    have hdot : IsSmall (Char.ofNat 0x307) := by decide +kernel
    obtain rfl | h := List.mem_cons.mp h
    · exact hi
    · rwa [List.mem_singleton.mp h]
  · rename_i hdotted
    split at h
    · rename_i r hr
      have hmem := List.mem_of_find?_eq_some hr
      have hcovers := List.find?_some hr
      have valid := CaseRun.valid_of_mem r hmem
      have hnumber : (Char.ofNat (c.toNat + r.shift).toNat).toNat = (c.toNat + r.shift).toNat := by
        rw [Char.ofNat, dif_pos (CaseRun.isValidChar_of_covers valid hcovers)]
        rfl
      obtain rfl := List.mem_singleton.mp h
      intro other hother
      rw [hnumber]
      exact CaseRun.not_covers_of_apart (CaseRun.apart_of_mem hmem hother) (CaseRun.small_covers valid hcovers)
    · rename_i hnone
      obtain rfl := List.mem_singleton.mp h
      refine isSmall_iff.mpr ⟨hdotted, hsigma, fun r hr => ?_⟩
      exact Bool.eq_false_iff.mpr (List.find?_eq_none.mp hnone r hr)

theorem isSmall_lowerAfter (h : e ∈ lowerAfter before cs) : IsSmall e := by
  induction cs generalizing before with
  | nil => cases h
  | cons c cs ih =>
      rw [lowerAfter, List.mem_append] at h
      obtain hsmall | hrest := h
      · split at hsmall
        · have hall (b : Bool) : IsSmall (Char.ofNat (if b then 0x3c2 else 0x3c3)) := by
            cases b <;> decide +kernel
          obtain rfl := List.mem_singleton.mp hsmall
          exact hall _
        · rename_i hsigma
          exact isSmall_lowerChar hsigma hsmall
      · exact ih hrest

theorem lower_lower (s : String) : lower (lower s) = lower s := by
  apply String.toList_injective
  rw [lower, lower, String.toList_ofList, String.toList_ofList]
  exact lowerAfter_of_isSmall fun e he => isSmall_lowerAfter he

theorem alike_lower (s : String) : Alike (lower s) s := lower_lower s

end LedgerQuery.Text
