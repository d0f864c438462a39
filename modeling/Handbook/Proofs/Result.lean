/-
**Results that are successes.**

A step that is taken on a result succeeds where the result is a success and the step succeeds on it.
A step that cannot fail leaves a failure as it is.
-/

namespace Handbook

variable {Error Value Other : Type}

theorem map_eq_ok_iff {change : Value → Other} {result : Except Error Value} {other : Other} :
    result.map change = .ok other ↔ ∃ value, result = .ok value ∧ change value = other := by
  cases result <;> simp [Except.map]

theorem bind_eq_ok_iff {next : Value → Except Error Other} {result : Except Error Value}
    {other : Other} :
    result >>= next = .ok other ↔ ∃ value, result = .ok value ∧ next value = .ok other := by
  cases result <;> simp [bind, Except.bind]

theorem map_eq_error_iff {change : Value → Other} {result : Except Error Value} {error : Error} :
    result.map change = .error error ↔ result = .error error := by
  cases result <;> simp [Except.map]

end Handbook
