/-
**Operators.**

Operators are documented in groups. A group shows snippets, with a help text beside each of them or
not; the help texts of a group stand in one column.

* `length_snippet_le_columnWidth`: no snippet of a group is longer than its column.
-/

import Handbook.Failure

namespace Handbook

/-- A snippet that shows an operator, and what it means. -/
structure OperatorExample where
  snippet : Text
  help : Option Text
  deriving DecidableEq, Repr

/-- A group of operators. -/
structure OperatorGroup where
  title : Text
  prelude : Option Text
  examples : List OperatorExample
  deriving DecidableEq, Repr

/-- A snippet with its help text after a column of a given width. -/
def OperatorExample.row (width : Nat) (shown : OperatorExample) : Text :=
  match shown.help with
  | none => shown.snippet
  | some help => Text.padTo width shown.snippet ++ " - ".toList ++ help

namespace OperatorGroup

/-- The width of the column of snippets: the length of the longest one. -/
def columnWidth (group : OperatorGroup) : Except Failure Nat :=
  match (group.examples.map fun shown => shown.snippet.length).max? with
  | none => .error (.emptyExamples group.title)
  | some width => .ok width

/-- **No snippet of a group is longer than its column.** -/
theorem length_snippet_le_columnWidth {group : OperatorGroup} {width : Nat}
    (known : group.columnWidth = .ok width) {shown : OperatorExample}
    (member : shown ∈ group.examples) : shown.snippet.length ≤ width := by
  unfold columnWidth at known
  split at known
  · simp at known
  · rename_i widest found
    simp only [Except.ok.injEq] at known
    subst known
    exact (List.max?_le_iff found).mp (Nat.le_refl _) _ (List.mem_map.mpr ⟨shown, member, rfl⟩)

end OperatorGroup

end Handbook
