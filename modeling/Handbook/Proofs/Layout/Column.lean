/-
**Operators in columns.**

The examples of a group are shown one row each. A row with a help text is the snippet, spaces up to
the width of the longest snippet of the group, a hyphen between spaces, and the help text; so the
hyphens of a group stand in one column, on the terminal behind a margin. A row without a help text
is the bare snippet. The width of the column does not depend on the order of the examples, so
another order of the examples only puts their rows into that order.

* `widest_spec`, `widest_showing`: the width of a column, whatever the order of its examples;
* `aligned_row`, `onTerminal_row`: the rows of an example;
* `operators_in_columns`: the rows of a group in the documents.
-/

import Handbook.Proofs.Layout.Operator

namespace Handbook

open Terminal Colorize Text

/-! ### Rows -/

/-- An example whose texts keep to one line each. -/
def OperatorExample.OneLine (shown : OperatorExample) : Prop :=
  ∀ text ∈ shown.texts, ∀ c ∈ text, isLineBreak c = false

instance (shown : OperatorExample) : Decidable shown.OneLine :=
  decidable_of_iff (shown.texts.all fun text => !text.any isLineBreak) <| by
    simp [OperatorExample.OneLine]

/-- How an example is shown in a column of a width: its snippet with spaces up to the width, a hyphen
and its help text, or its bare snippet. -/
inductive Aligned (width : Nat) : OperatorExample → Text → Prop where
  | helped {snippet spaces help : Text} : (∀ c ∈ spaces, c = ' ') →
      (snippet ++ spaces).length = width →
      Aligned width ⟨snippet, some help⟩ (snippet ++ spaces ++ " - ".toList ++ help)
  | bare {snippet : Text} : Aligned width ⟨snippet, none⟩ snippet

/-- How an example is shown on the terminal: behind four spaces, unless it is blank. -/
inductive OnTerminal (width : Nat) : OperatorExample → Text → Prop where
  | helped {snippet help row : Text} : Aligned width ⟨snippet, some help⟩ row →
      OnTerminal width ⟨snippet, some help⟩ ("    ".toList ++ row)
  | bare {snippet : Text} : isBlankText snippet = false →
      OnTerminal width ⟨snippet, none⟩ ("    ".toList ++ snippet)
  | blank {snippet : Text} : isBlankText snippet = true → OnTerminal width ⟨snippet, none⟩ snippet

namespace OperatorExample

variable {shown : OperatorExample} {width : Nat}

theorem aligned_row (fits : shown.snippet.length ≤ width) : Aligned width shown (shown.row width) := by
  obtain ⟨snippet, help⟩ := shown
  cases help with
  | none => exact .bare
  | some help =>
    refine .helped (fun c member => List.eq_of_mem_replicate member) ?_
    rw [List.length_append, List.length_replicate]
    exact Nat.add_sub_cancel' fits

theorem isLineBreak_row (oneLine : shown.OneLine) :
    ∀ c ∈ shown.row width, isLineBreak c = false := by
  obtain ⟨snippet, help⟩ := shown
  have inside := oneLine snippet (List.mem_cons_self ..)
  cases help with
  | none => exact inside
  | some help =>
    have helped := oneLine help (by simp [texts])
    have spaces : ∀ c ∈ List.replicate (width - snippet.length) ' ', isLineBreak c = false :=
      fun c member => List.eq_of_mem_replicate member ▸ by decide
    have hyphen : ∀ c ∈ " - ".toList, isLineBreak c = false :=
      List.all_iff_forall_prop.mp (by decide)
    simp only [row, padTo, List.mem_append]
    rintro c (((member | member) | member) | member)
    · exact inside c member
    · exact spaces c member
    · exact hyphen c member
    · exact helped c member

theorem onTerminal_row (fits : shown.snippet.length ≤ width) (oneLine : shown.OneLine) :
    OnTerminal width shown (indent (shown.row width)) := by
  rw [indent_line (isLineBreak_row oneLine), indentLine]
  have aligned := aligned_row fits
  obtain ⟨snippet, help⟩ := shown
  cases help with
  | none =>
    split
    · rename_i blank
      exact .blank blank
    · rename_i visible
      exact .bare (Bool.eq_false_iff.mpr visible)
  | some help =>
    have visible : ¬ isBlankText (row width ⟨snippet, some help⟩) = true := by
      intro blank
      exact absurd (List.all_eq_true.mp blank '-' (by simp [row])) (by decide)
    rw [if_neg visible]
    exact .helped aligned

end OperatorExample

/-! ### Columns -/

namespace OperatorGroup

variable {group : OperatorGroup}

/-- **A column is as wide as the longest snippet.** -/
theorem widest_spec (filled : group.examples ≠ []) :
    (∀ shown ∈ group.examples, shown.snippet.length ≤ group.widest) ∧
      ∃ shown ∈ group.examples, shown.snippet.length = group.widest := by
  have known := group.columnWidth_eq
  rw [if_neg (mt isBare_iff.mp filled)] at known
  refine ⟨fun shown member => length_snippet_le_columnWidth known member, ?_⟩
  unfold widest
  cases found : (group.examples.map fun shown => shown.snippet.length).max? with
  | none => exact absurd (List.map_eq_nil_iff.mp (List.max?_eq_none_iff.mp found)) filled
  | some width => exact List.mem_map.mp (List.max?_mem found)

/-- A group with other examples. -/
def showing (group : OperatorGroup) (examples : List OperatorExample) : OperatorGroup :=
  { group with examples }

/-- The order of the examples does not count for the column. -/
theorem widest_showing (filled : group.examples ≠ []) {examples : List OperatorExample}
    (same : examples.Perm group.examples) : (group.showing examples).widest = group.widest := by
  have filled' : (group.showing examples).examples ≠ [] := fun nothing =>
    filled (List.nil_perm.mp (nothing ▸ same))
  obtain ⟨below, one, member, attained⟩ := widest_spec filled
  obtain ⟨below', one', member', attained'⟩ := widest_spec filled'
  refine Nat.le_antisymm ?_ ?_
  · rw [← attained']
    exact below one' (same.mem_iff.mp member')
  · rw [← attained]
    exact below' one (same.mem_iff.mpr member)

end OperatorGroup

/-! ### Documents -/

/-- Rows, each of which is ended. -/
def ended (rows : List Text) : Text := rows.flatMap fun row => row ++ ['\n']

/-- What stands in Markdown before the rows of a group, given the groups before it. -/
def markdownBefore (before : List OperatorGroup) (group : OperatorGroup) : Text :=
  operatorsHeader ++ before.flatMap OperatorGroup.wholeMarkdown
    ++ (group.header ++ group.introduction (fun text => text) ++ "```txt\n".toList)

/-- What stands in Markdown behind the rows of a group, given the groups behind it. -/
def markdownBehind (after : List OperatorGroup) : Text :=
  "```\n\n".toList ++ after.flatMap OperatorGroup.wholeMarkdown

/-- What stands on the terminal before the rows of a group, given the groups before it. -/
def terminalBefore (before : List OperatorGroup) (group : OperatorGroup) : Text :=
  operatorsHeader ++ before.flatMap OperatorGroup.wholeText
    ++ (group.header ++ group.introduction (wrap .prose))

/-- What stands on the terminal behind the rows of a group, given the groups behind it. -/
def terminalBehind (after : List OperatorGroup) : Text :=
  "\n\n".toList ++ after.flatMap OperatorGroup.wholeText

section

variable {before after : List OperatorGroup} {group : OperatorGroup}
  {examples : List OperatorExample}

theorem filled_showing (filled : ∀ other ∈ before ++ group :: after, other.examples ≠ [])
    (same : examples.Perm group.examples) :
    ∀ other ∈ before ++ group.showing examples :: after, other.examples ≠ [] := by
  simp only [List.forall_mem_append, List.forall_mem_cons] at filled ⊢
  exact ⟨filled.1, fun nothing => filled.2.1 (List.nil_perm.mp (nothing ▸ same)), filled.2.2⟩

theorem clear_showing (clear : Clear ((before ++ group :: after).flatMap OperatorGroup.texts))
    (same : examples.Perm group.examples) :
    Clear ((before ++ group.showing examples :: after).flatMap OperatorGroup.texts) := by
  have texts : (group.showing examples).texts ⊆ group.texts :=
    ((same.flatMap_right OperatorExample.texts).append_left
      (group.title :: group.prelude.toList)).subset
  intro text member
  refine clear text ?_
  simp only [List.flatMap_append, List.flatMap_cons, List.mem_append] at member ⊢
  exact member.imp_right (Or.imp_left fun inside => texts inside)

theorem wholeMarkdown_showing (filled : group.examples ≠ []) (same : examples.Perm group.examples) :
    (group.showing examples).wholeMarkdown =
      group.header ++ group.introduction (fun text => text) ++ "```txt\n".toList
        ++ ended (examples.map (·.row group.widest)) ++ "```\n\n".toList := by
  rw [OperatorGroup.wholeMarkdown, OperatorGroup.widest_showing filled same, ended,
    List.flatMap_map]
  rfl

theorem wholeText_showing (filled : group.examples ≠ []) (same : examples.Perm group.examples) :
    (group.showing examples).wholeText =
      group.header ++ group.introduction (wrap .prose)
        ++ ended (examples.map fun shown => indent (shown.row group.widest)) ++ "\n\n".toList := by
  rw [OperatorGroup.wholeText, OperatorGroup.widest_showing filled same, ended, List.flatMap_map]
  rfl

theorem operatorsMarkdown_showing
    (filled : ∀ other ∈ before ++ group :: after, other.examples ≠ [])
    (same : examples.Perm group.examples) :
    operatorsMarkdown (before ++ group.showing examples :: after) =
      .ok (markdownBefore before group ++ ended (examples.map (·.row group.widest))
        ++ markdownBehind after) := by
  have whole := wholeMarkdown_showing (filled group (by simp)) same
  rw [operatorsMarkdown_eq_unlessBare, find?_isBare_eq_none_iff.mpr (filled_showing filled same),
    List.flatMap_append, List.flatMap_cons, whole, markdownBefore, markdownBehind]
  simp only [unlessBare, List.append_assoc]

/-- What the operators show on the terminal. -/
theorem operatorsText_showing
    (filled : ∀ other ∈ before ++ group :: after, other.examples ≠ [])
    (clear : Clear ((before ++ group :: after).flatMap OperatorGroup.texts))
    (same : examples.Perm group.examples) :
    ∃ text, operatorsText .colored (before ++ group.showing examples :: after) = .ok text ∧
      stripColors text = terminalBefore before group
        ++ ended (examples.map fun shown => indent (shown.row group.widest))
        ++ terminalBehind after := by
  have laidOut (ink : Ink) : operatorsText ink (before ++ group.showing examples :: after) =
      .ok (ink.prose (terminalBefore before group
        ++ ended (examples.map fun shown => indent (shown.row group.widest))
        ++ terminalBehind after)) := by
    have whole := wholeText_showing (filled group (by simp)) same
    rw [operatorsText_eq_unlessBare, find?_isBare_eq_none_iff.mpr (filled_showing filled same),
      List.flatMap_append, List.flatMap_cons, whole, terminalBefore, terminalBehind]
    simp only [unlessBare, List.append_assoc]
  have plain := clear_operators (clear_showing clear same) (laidOut .plain)
  rw [Ink.plain_prose] at plain
  refine ⟨_, laidOut .colored, ?_⟩
  rw [Ink.colored_prose, (shows_prose plain).visible]

end

/-- **The rows of a group, in whatever order its examples stand.** The column is as wide as the
longest snippet. In Markdown each example is one row of the column, on the terminal the same row
behind a margin, in the order of the examples; what stands around the rows does not depend on that
order. -/
theorem operators_in_columns {groups before after : List OperatorGroup} {group : OperatorGroup}
    (place : groups = before ++ group :: after) (filled : ∀ other ∈ groups, other.examples ≠ [])
    (clear : Clear (groups.flatMap OperatorGroup.texts))
    (oneLine : ∀ other ∈ groups, ∀ shown ∈ other.examples, shown.OneLine) :
    ((∀ shown ∈ group.examples, shown.snippet.length ≤ group.widest) ∧
      ∃ shown ∈ group.examples, shown.snippet.length = group.widest) ∧
    (∀ shown ∈ group.examples, Aligned group.widest shown (shown.row group.widest) ∧
      OnTerminal group.widest shown (indent (shown.row group.widest)) ∧
      ∀ c ∈ shown.row group.widest, isLineBreak c = false) ∧
    ∀ examples, examples.Perm group.examples →
      operatorsMarkdown (before ++ group.showing examples :: after) =
        .ok (markdownBefore before group ++ ended (examples.map (·.row group.widest))
          ++ markdownBehind after) ∧
      ∃ text, operatorsText .colored (before ++ group.showing examples :: after) = .ok text ∧
        stripColors text = terminalBefore before group
          ++ ended (examples.map fun shown => indent (shown.row group.widest))
          ++ terminalBehind after := by
  subst place
  have member : group ∈ before ++ group :: after := by simp
  have column := OperatorGroup.widest_spec (filled group member)
  refine ⟨column, fun shown inside => ?_, fun examples same => ?_⟩
  · have fits := column.1 shown inside
    have single := oneLine group member shown inside
    exact ⟨OperatorExample.aligned_row fits, OperatorExample.onTerminal_row fits single,
      OperatorExample.isLineBreak_row single⟩
  · exact ⟨operatorsMarkdown_showing filled same, operatorsText_showing filled clear same⟩

/-- A group of one operator. -/
def testOperators : OperatorGroup :=
  ⟨"Tests".toList, none, [⟨"!x".toList, some "not".toList⟩]⟩

/-- A group with a blank snippet, an empty one, and operators in its texts. -/
def numberOperators : OperatorGroup :=
  ⟨"Numbers".toList, some "Use x + y.".toList,
    [⟨"x + y".toList, some "sum".toList⟩, ⟨"  ".toList, none⟩, ⟨[], some "see x - y".toList⟩,
      ⟨"-x".toList, none⟩]⟩

theorem operators_in_columns_blank :
    (∀ other ∈ [testOperators, numberOperators], other.examples ≠ []) ∧
      Clear ([testOperators, numberOperators].flatMap OperatorGroup.texts) ∧
      (∀ other ∈ [testOperators, numberOperators], ∀ shown ∈ other.examples, shown.OneLine) ∧
      ∃ text, operatorsText .colored [testOperators, numberOperators] = .ok text ∧
        stripColors text = terminalBefore [testOperators] numberOperators ++
          "    x + y - sum\n  \n          - see x - y\n    -x\n".toList ++ terminalBehind [] := by
  have filled : ∀ other ∈ [testOperators, numberOperators], other.examples ≠ [] := by decide
  have clear : Clear ([testOperators, numberOperators].flatMap OperatorGroup.texts) := by decide
  have oneLine : ∀ other ∈ [testOperators, numberOperators], ∀ shown ∈ other.examples,
      shown.OneLine := by decide
  have place : [testOperators, numberOperators] = [testOperators] ++ numberOperators :: [] := rfl
  obtain ⟨-, -, orders⟩ := operators_in_columns place filled clear oneLine
  obtain ⟨-, text, laidOut, visible⟩ := orders _ (List.Perm.refl _)
  exact ⟨filled, clear, oneLine, text, laidOut, visible⟩

end Handbook
