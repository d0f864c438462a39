/-
**Ranges of code points.**

A property of characters is kept as a list of ranges in increasing order, so that a search stops at
the first range past its character.

* `Ranges.exists_of_covers`: a covered character lies in one of the ranges.
-/

namespace Handbook.Unicode

/-- Ranges of code points, both ends included, in increasing order. -/
structure Ranges where
  bounds : List (Nat × Nat)

/-- Whether a code point lies in one of some ordered ranges. -/
def within : List (Nat × Nat) → Nat → Bool
  | [], _ => false
  | (first, last) :: others, code =>
    if code < first then false else code ≤ last || within others code

/-- Whether a character lies in one of the ranges. -/
def Ranges.covers (ranges : Ranges) (c : Char) : Bool := within ranges.bounds c.toNat

theorem exists_of_within {bounds : List (Nat × Nat)} {code : Nat}
    (inside : within bounds code = true) :
    ∃ range ∈ bounds, range.1 ≤ code ∧ code ≤ range.2 := by
  induction bounds with
  | nil => simp [within] at inside
  | cons range others step =>
    obtain ⟨first, last⟩ := range
    by_cases below : code < first
    · simp [within, below] at inside
    · by_cases under : code ≤ last
      · exact ⟨(first, last), by simp, by omega, under⟩
      · obtain ⟨found, member, bounded⟩ := step (by simpa [within, below, under] using inside)
        exact ⟨found, by simp [member], bounded⟩

/-- **A covered character lies in one of the ranges.** -/
theorem Ranges.exists_of_covers {ranges : Ranges} {c : Char} (covered : ranges.covers c = true) :
    ∃ range ∈ ranges.bounds, range.1 ≤ c.toNat ∧ c.toNat ≤ range.2 :=
  exists_of_within covered

end Handbook.Unicode
