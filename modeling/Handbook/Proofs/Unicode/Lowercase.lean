/-
**Small letters stay small.**

The small letters of the runs are no capital letters themselves: no run of capitals reaches into the
letters that another one is moved to. So the small form of a character consists of characters that
are their own small forms. Among the letters of ASCII, a capital and its small letter have the same
small form and the same properties.

* `avoids_of_mem`: the runs of capital letters and their small letters lie apart;
* `isSmall_of_mem_smallForm`: small forms are made of small characters;
* `smallForm_toLower`, `isCased_toLower`, `isCaseIgnorable_toLower`: the letters of ASCII.
-/

import Handbook.Unicode.Cased
import Handbook.Unicode.Lowercase

namespace Handbook.Unicode

/-! ### Runs that lie apart -/

/-- The capital I with a dot, as a run of its own. -/
def dottedRun : CaseRun := ⟨0x130, 0x130, 1, 0⟩

/-- The code of the first small letter of a run. -/
def CaseRun.low (run : CaseRun) : Nat := (run.first + run.shift).toNat

/-- The code of the last small letter of a run. -/
def CaseRun.high (run : CaseRun) : Nat := (run.last + run.shift).toNat

/-- Whether the letters of a run are two code points away from each other, or there is only one. -/
def CaseRun.isSparse (run : CaseRun) : Bool := run.step == 2 || run.first == run.last

/-- Whether the small letters of a run are characters. -/
def CaseRun.lands (run : CaseRun) : Bool :=
  0 ≤ run.first + run.shift &&
    (run.high < 0xD800 || 0xE000 ≤ run.low && run.high < 0x110000)

/-- Whether a run of capitals does not reach into the letters between two codes: it lies before or
behind them, or between them at every other code point. -/
def CaseRun.avoids (low high : Nat) (sparse : Bool) (run : CaseRun) : Bool :=
  high.blt run.first || run.last.blt low ||
    sparse && run.step == 2 && (low + run.first) % 2 == 1

theorem lands_of_mem : ∀ run ∈ caseRuns, run.lands = true := by decide +kernel

/-- **The runs of capital letters and their small letters lie apart.** -/
theorem avoids_of_mem {run other : CaseRun} (member : run ∈ caseRuns)
    (inside : other ∈ dottedRun :: caseRuns) :
    other.avoids run.low run.high run.isSparse = true := by
  have all : (caseRuns.all fun run =>
      (dottedRun :: caseRuns).all (CaseRun.avoids run.low run.high run.isSparse)) = true := by
    decide +kernel
  exact List.all_eq_true.mp (List.all_eq_true.mp all run member) other inside

/-- The code of a small letter, as the code of a character. -/
theorem exists_code {run : CaseRun} (lands : run.lands = true) {code : Nat}
    (holds : run.holds code = true) :
    ∃ small : Nat, (code + run.shift : Int) = small ∧ small.isValidChar := by
  simp only [CaseRun.lands, CaseRun.holds, Bool.and_eq_true, Bool.or_eq_true, decide_eq_true_eq]
    at lands holds
  unfold CaseRun.low CaseRun.high at lands
  obtain ⟨positive, inside⟩ := lands
  obtain ⟨⟨first, last⟩, -⟩ := holds
  refine ⟨(code + run.shift).toNat, by omega, ?_⟩
  unfold Nat.isValidChar
  omega

theorem not_holds_of_avoids {run other : CaseRun} (lands : run.lands = true)
    (avoids : other.avoids run.low run.high run.isSparse = true) {code small : Nat}
    (holds : run.holds code = true) (moved : (code + run.shift : Int) = small) :
    other.holds small = false := by
  simp only [CaseRun.avoids, CaseRun.isSparse, CaseRun.holds, CaseRun.lands, Bool.and_eq_true,
    Bool.or_eq_true, decide_eq_true_eq, beq_iff_eq, Nat.blt_eq] at avoids holds lands
  unfold CaseRun.low CaseRun.high at avoids
  rw [Bool.eq_false_iff]
  intro reaches
  simp only [CaseRun.holds, Bool.and_eq_true, decide_eq_true_eq, beq_iff_eq] at reaches
  obtain ⟨⟨first, last⟩, step⟩ := holds
  obtain ⟨⟨first', last'⟩, step'⟩ := reaches
  rcases avoids with (before | behind) | ⟨⟨sparse, two⟩, odd⟩
  · omega
  · omega
  · rw [two] at step'
    rcases sparse with even | single
    · rw [even] at step
      omega
    · omega

/-! ### Small characters -/

/-- A character that is its own small form. -/
def IsSmall (c : Char) : Prop := c ≠ 'Σ' ∧ smallForm c = [c]

instance (c : Char) : Decidable (IsSmall c) := inferInstanceAs (Decidable (_ ∧ _))

/-- A character that is not among the capitals. -/
theorem isSmall_of_outside {c : Char}
    (outside : ∀ run ∈ dottedRun :: caseRuns, run.holds c.toNat = false) : IsSmall c := by
  have sigma : ∃ run ∈ caseRuns, run.holds 'Σ'.toNat = true := by decide +kernel
  have plain : c ≠ '\u0130' := by
    rintro rfl
    exact absurd (outside dottedRun (List.mem_cons_self ..)) (by decide)
  have none : caseRuns.find? (·.holds c.toNat) = none := by
    rw [List.find?_eq_none]
    exact fun run member => by simp [outside run (List.mem_cons_of_mem _ member)]
  refine ⟨?_, by rw [smallForm, if_neg plain, smallLetter, none]⟩
  rintro rfl
  obtain ⟨run, member, holds⟩ := sigma
  rw [outside run (List.mem_cons_of_mem _ member)] at holds
  exact absurd holds (by decide)

/-- The small letter of a capital one is small, and any other letter is left as it is. -/
theorem isSmall_or_eq (c : Char) : IsSmall (smallLetter c) ∨
    smallLetter c = c ∧ ∀ run ∈ caseRuns, run.holds c.toNat = false := by
  unfold smallLetter
  cases found : caseRuns.find? (·.holds c.toNat) with
  | none =>
    rw [List.find?_eq_none] at found
    exact Or.inr ⟨rfl, fun run member => Bool.eq_false_iff.mpr (found run member)⟩
  | some run =>
    have member := List.mem_of_find?_eq_some found
    have holds := List.find?_some found
    obtain ⟨small, moved, valid⟩ := exists_code (lands_of_mem run member) holds
    refine Or.inl (isSmall_of_outside fun other inside => ?_)
    have code : (Char.ofNat (c.toNat + run.shift).toNat).toNat = small := by
      rw [moved, Int.toNat_natCast, Char.ofNat, dif_pos valid]
      rfl
    rw [code]
    exact not_holds_of_avoids (lands_of_mem run member) (avoids_of_mem member inside) holds moved

/-- **Small forms are made of small characters.** -/
theorem isSmall_of_mem_smallForm {c d : Char} (member : d ∈ smallForm c) :
    IsSmall d := by
  rw [smallForm] at member
  split at member
  · have both : IsSmall 'i' ∧ IsSmall '\u0307' := by decide +kernel
    rcases List.mem_cons.mp member with rfl | later
    · exact both.1
    · exact List.mem_singleton.mp later ▸ both.2
  · rename_i plain
    obtain rfl := List.mem_singleton.mp member
    rcases isSmall_or_eq c with small | ⟨same, outside⟩
    · exact small
    · rw [same]
      refine isSmall_of_outside fun run inside => ?_
      rcases List.mem_cons.mp inside with rfl | inside
      · rw [Bool.eq_false_iff]
        intro holds
        simp only [CaseRun.holds, dottedRun, Bool.and_eq_true] at holds
        exact plain (Char.toNat_inj.mp (Nat.le_antisymm (of_decide_eq_true holds.1.2)
          (of_decide_eq_true holds.1.1)))
      · exact outside run inside

/-! ### The letters of ASCII -/

/-- What is the same of each capital letter of ASCII and of its small letter cannot tell the case of
such letters. -/
theorem toLower_congr {Value : Type} (view : Char → Value)
    (same : ∀ place < 26, view (Char.ofNat (65 + place)).toLower = view (Char.ofNat (65 + place)))
    (c : Char) : view c.toLower = view c := by
  by_cases capital : c.val ≥ 'A'.val ∧ c.val ≤ 'Z'.val
  · have low : 65 ≤ c.toNat := UInt32.le_iff_toNat_le.mp capital.1
    have high : c.toNat ≤ 90 := UInt32.le_iff_toNat_le.mp capital.2
    have code : 65 + (c.toNat - 65) = c.toNat := by omega
    have letter := same (c.toNat - 65) (by omega)
    rwa [code, Char.ofNat_toNat] at letter
  · exact congrArg view (dif_neg capital)

theorem smallForm_toLower (c : Char) : smallForm c.toLower = smallForm c :=
  toLower_congr smallForm (by decide +kernel) c

theorem isCased_toLower (c : Char) : isCased c.toLower = isCased c :=
  toLower_congr isCased (by decide +kernel) c

theorem isCaseIgnorable_toLower (c : Char) : isCaseIgnorable c.toLower = isCaseIgnorable c :=
  toLower_congr isCaseIgnorable (by decide +kernel) c

theorem toLower_eq_sigma_iff (c : Char) : c.toLower = 'Σ' ↔ c = 'Σ' := by
  have same := toLower_congr (fun c => decide (c = 'Σ')) (by decide) c
  rwa [decide_eq_decide] at same

end Handbook.Unicode
