/-
**Coloring of code can tear a sequence.**

A literal of code is colored before the names of calls are. Where a parenthesis follows, the last
letter of the sequence behind the literal reads as the name of a call, or as its first letter, and
its coloring tears the sequence. Nothing else in the coloring of code tears one.

* `callsColored`, `operatorsColored`: the steps in which calls and operators are colored;
* `frays_colorCalls`: calls tear exactly the sequences that a name and a parenthesis follow;
* `frays_colorOperators`, `frays_indent`: operators and margins tear nothing and mend nothing;
* `frays_finish`: so does the rest of the coloring of code as a whole.
-/

import Mathlib.Data.Bool.AllAny
import Handbook.Colorize.Code
import Handbook.Proofs.Pattern.Code
import Handbook.Proofs.Terminal.Frayed
import Handbook.Proofs.Text.Indent

namespace Handbook.Colorize

open Terminal Pattern Text

/-! ### Calls -/

/-- A text that goes on as a call does behind the first letter of its name. -/
def ContinuesCall (text : Text) : Prop :=
  ∃ name after, (∀ c ∈ name, isCallChar c = true) ∧ text = name ++ '(' :: after

/-- A color sequence followed by a name, possibly an empty one, and a parenthesis. -/
def GluedCall (text : Text) : Prop :=
  ∃ before code after, IsCode code ∧ text = before ++ select code ++ after ∧ ContinuesCall after

theorem gluedCall_append {first : Text} (clear : escape ∉ first) (rest : Text) :
    GluedCall (first ++ rest) ↔ GluedCall rest := by
  constructor
  · rintro ⟨before, code, after, isCode, cut, continues⟩
    rw [List.append_assoc] at cut
    rcases List.append_eq_append_iff.mp cut with ⟨between, _, later⟩ | ⟨between, earlier, later⟩
    · exact ⟨between, code, after, isCode, by rw [later, List.append_assoc], continues⟩
    · cases between with
      | nil => exact ⟨[], code, after, isCode, later.symm, continues⟩
      | cons c others =>
        have same := (List.cons.inj later).1
        rw [earlier, ← same] at clear
        exact absurd (List.mem_append_right _ (List.mem_cons_self ..)) clear
  · rintro ⟨before, code, after, isCode, rfl, continues⟩
    exact ⟨first ++ before, code, after, isCode, by simp, continues⟩

theorem gluedCall_select {code : Text} (isCode : IsCode code) (rest : Text) :
    GluedCall (select code ++ rest) ↔ ContinuesCall rest ∨ GluedCall rest := by
  have cut : select code = escape :: ('[' :: code ++ ['m']) := rfl
  have clear : escape ∉ '[' :: code ++ ['m'] := by
    rw [List.mem_append, List.mem_cons, not_or, not_or]
    exact ⟨⟨by decide, escape_not_mem_code isCode⟩, by decide⟩
  constructor
  · rintro ⟨before, other, after, isOther, whole, continues⟩
    cases before with
    | nil =>
      rw [List.nil_append] at whole
      rw [(select_append_inj isCode isOther whole).2]
      exact Or.inl continues
    | cons c others =>
      rw [cut, List.cons_append, List.cons_append, List.cons_append] at whole
      exact Or.inr ((gluedCall_append clear rest).mp
        ⟨others, other, after, isOther, (List.cons.inj whole).2, continues⟩)
  · rintro (continues | ⟨before, other, after, isOther, rfl, continues⟩)
    · exact ⟨[], code, rest, isCode, rfl, continues⟩
    · exact ⟨select code ++ before, other, after, isOther, by simp, continues⟩

/-- A text with the names of calls in blue. -/
def colorCalls (text : Text) : Text := Pattern.codeCall.replaceAll codeCall text

theorem colorCalls_plain {c : Char} {rest : Text}
    (absent : Pattern.codeCall.reach? none (c :: rest) = none) :
    colorCalls (c :: rest) = c :: colorCalls rest := by
  rw [colorCalls, replaceAll_eq, replaceFrom_plain absent, closed_codeCall.forward.replaceFrom_eq]
  rfl

theorem colorCalls_name {name : Text} (nonempty : name ≠ [])
    (inside : ∀ c ∈ name, isCallChar c = true) (rest : Text) :
    colorCalls ((name ++ ['(']) ++ rest) = (colored .blue name ++ ['(']) ++ colorCalls rest := by
  rw [colorCalls, replaceAll_eq, replaceFrom_found (by simp) (codeCall_name nonempty inside rest),
    closed_codeCall.forward.replaceFrom_eq]
  rfl

theorem isCallChar_digit {c : Char} (digit : c.isDigit = true) : isCallChar c = false := by
  have bounds : 48 ≤ c.toNat ∧ c.toNat ≤ 57 := by
    simpa [Char.isDigit, UInt32.le_iff_toNat_le] using digit
  cases call : isCallChar c with
  | false => rfl
  | true =>
    simp only [isCallChar, Bool.or_eq_true, beq_iff_eq] at call
    rcases call with lower | rfl
    · have low : 97 ≤ c.toNat ∧ c.toNat ≤ 122 := by
        change (decide (c.val ≥ 'a'.val) && decide (c.val ≤ 'z'.val)) = true at lower
        simpa [UInt32.le_iff_toNat_le] using lower
      omega
    · exact absurd bounds (by decide)

/-- Calls begin with the first letter of their name. -/
theorem spares_codeCall {c : Char} (other : isCallChar c = false) : Pattern.codeCall.Spares c := by
  intro before rest
  cases found : Pattern.codeCall.reach? before (c :: rest) with
  | none => rfl
  | some reach =>
    obtain ⟨name, others, nonempty, inside, cut, _⟩ := reach?_codeCall found
    cases name with
    | nil => exact absurd rfl nonempty
    | cons d more =>
      have first := inside d (List.mem_cons_self ..)
      rw [← (List.cons.inj cut).1, other] at first
      exact absurd first (by decide)

theorem isCallChar_code {code : Text} (isCode : IsCode code) : ∀ c ∈ code, isCallChar c = false :=
  fun c member => isCallChar_digit (isCode.2 c member)

theorem colorCalls_opening {parameters : Text}
    (outside : ∀ c ∈ parameters, isCallChar c = false) (rest : Text) :
    colorCalls ((escape :: '[' :: parameters) ++ rest) =
      (escape :: '[' :: parameters) ++ colorCalls rest := by
  have spared : ∀ c ∈ escape :: '[' :: parameters, Pattern.codeCall.Spares c := by
    intro c member
    refine spares_codeCall ?_
    rcases List.mem_cons.mp member with rfl | member
    · decide
    · rcases List.mem_cons.mp member with rfl | later
      · decide
      · exact outside c later
  rw [colorCalls, replaceAll_eq, replaceFrom_spared spared, closed_codeCall.forward.replaceFrom_eq]
  rfl

theorem colorCalls_torn {code name : Text} (isCode : IsCode code)
    (inside : ∀ c ∈ name, isCallChar c = true) (rest : Text) :
    colorCalls (select code ++ (name ++ '(' :: rest)) =
      tornCall code name ++ '(' :: colorCalls rest := by
  have letters : ∀ c ∈ 'm' :: name, isCallChar c = true := by
    intro c member
    rcases List.mem_cons.mp member with rfl | member
    · decide
    · exact inside c member
  have cut : select code ++ (name ++ '(' :: rest) =
      (escape :: '[' :: code) ++ (('m' :: name ++ ['(']) ++ rest) := by simp [select]
  rw [cut, colorCalls_opening (isCallChar_code isCode), colorCalls_name (List.cons_ne_nil _ _) letters]
  simp [tornCall]

theorem colorCalls_select {parameters rest : Text}
    (outside : ∀ c ∈ parameters, isCallChar c = false) (apart : ¬ ContinuesCall rest) :
    colorCalls (select parameters ++ rest) = select parameters ++ colorCalls rest := by
  have absent : Pattern.codeCall.reach? none ('m' :: rest) = none := by
    cases found : Pattern.codeCall.reach? none ('m' :: rest) with
    | none => rfl
    | some reach =>
      obtain ⟨name, after, nonempty, inside, cut, _⟩ := reach?_codeCall found
      cases name with
      | nil => exact absurd rfl nonempty
      | cons c others =>
        refine absurd ⟨others, after, fun d member => inside d (List.mem_cons_of_mem _ member), ?_⟩
          apart
        rw [List.append_assoc] at cut
        exact (List.cons.inj cut).2
  have cut : select parameters ++ rest = (escape :: '[' :: parameters) ++ ('m' :: rest) := by
    simp [select]
  rw [cut, colorCalls_opening outside, colorCalls_plain absent]
  simp [select]

/-- A text and what coloring of its calls makes of it: the name of a call is colored, a sequence
behind which a call goes on is torn, and all else stays. -/
inductive CallsColored : (text painted : Text) → Prop where
  | nil : CallsColored [] []
  | plain {c rest painted} : c ≠ escape → CallsColored rest painted →
      CallsColored (c :: rest) (c :: painted)
  | call {name rest painted} : name ≠ [] → (∀ c ∈ name, isCallChar c = true) →
      CallsColored rest painted →
      CallsColored ((name ++ ['(']) ++ rest) ((colored .blue name ++ ['(']) ++ painted)
  | sequence {code rest painted} : IsCode code → ¬ ContinuesCall rest →
      CallsColored rest painted → CallsColored (select code ++ rest) (select code ++ painted)
  | torn {code name rest painted} : IsCode code → (∀ c ∈ name, isCallChar c = true) →
      CallsColored rest painted →
      CallsColored (select code ++ (name ++ '(' :: rest)) (tornCall code name ++ '(' :: painted)

/-- **Calls are colored in these steps.** -/
theorem callsColored {text : Text} (intact : Intact text) : CallsColored text (colorCalls text) := by
  -- a call may take many characters at once, hence an induction on the length
  induction size : text.length using Nat.strongRecOn generalizing text with
  | ind total step =>
  cases text with
  | nil => exact .nil
  | cons c rest =>
    by_cases isEscape : c = escape
    · rw [isEscape] at intact size ⊢
      obtain ⟨code, others, isCode, whole⟩ := intact.whole
      rw [whole] at intact size ⊢
      by_cases continues : ContinuesCall others
      · obtain ⟨name, after, inside, rfl⟩ := continues
        have shorter : after.length < total := by
          simp only [List.length_append, List.length_cons] at size
          omega
        rw [colorCalls_torn isCode inside]
        exact .torn isCode inside
          (step _ shorter intact.of_append_right.of_append_right.of_cons rfl)
      · have shorter : others.length < total := by
          simp only [select, List.length_append, List.length_cons] at size
          omega
        rw [colorCalls_select (isCallChar_code isCode) continues]
        exact .sequence isCode continues (step _ shorter intact.of_append_right rfl)
    · cases found : Pattern.codeCall.reach? none (c :: rest) with
      | none =>
        rw [colorCalls_plain found]
        exact .plain isEscape (step rest.length (by simp [← size]) intact.of_cons rfl)
      | some reach =>
        obtain ⟨name, others, nonempty, inside, cut, _⟩ := reach?_codeCall found
        rw [cut] at intact size ⊢
        have shorter : others.length < total := by
          simp only [List.length_append, List.length_cons] at size
          omega
        rw [colorCalls_name nonempty inside]
        exact .call nonempty inside (step _ shorter intact.of_append_right rfl)

theorem not_gluedCall_nil : ¬ GluedCall [] := by
  rintro ⟨before, code, after, _, cut, _⟩
  simp [select] at cut

theorem escape_not_mem_name {name : Text} (inside : ∀ c ∈ name, isCallChar c = true) :
    escape ∉ name := fun member => absurd (inside escape member) (by decide)

theorem intact_call {name : Text} (inside : ∀ c ∈ name, isCallChar c = true) :
    Intact (colored .blue name ++ ['(']) :=
  ((intact_of_not_mem (escape_not_mem_name inside)).colored .blue).append
    (intact_of_not_mem (by decide))

/-- **Calls tear exactly the sequences that a name and a parenthesis follow.** -/
theorem frays_colorCalls {text : Text} (intact : Intact text) :
    Frays (colorCalls text) (¬ GluedCall text) := by
  have steps := callsColored intact
  clear intact
  generalize colorCalls text = painted at steps
  induction steps with
  | nil => exact ⟨.nil, iff_of_true intact_nil not_gluedCall_nil⟩
  | @plain c rest _ plain _ step =>
    have clear : escape ∉ [c] := by simpa using plain.symm
    exact (Frays.intact_append (intact_of_not_mem clear) step).congr
      (not_congr (gluedCall_append clear rest).symm)
  | @call name rest _ _ inside _ step =>
    have clear : escape ∉ name ++ ['('] := by
      rw [List.mem_append, not_or]
      exact ⟨escape_not_mem_name inside, by decide⟩
    exact (Frays.intact_append (intact_call inside) step).congr
      (not_congr (gluedCall_append clear rest).symm)
  | sequence isCode apart _ step =>
    rw [gluedCall_select isCode]
    exact (step.intact_append (intact_select isCode)).congr (by simp [apart])
  | torn isCode inside _ step =>
    rw [gluedCall_select isCode]
    exact ⟨.torn isCode inside (.plain (by decide) step.frayed),
      iff_of_false (not_intact_tornCall isCode _)
        (not_not_intro (Or.inl ⟨_, _, inside, rfl⟩))⟩

/-! ### Operators and margins -/

/-- A text with its operators in cyan. -/
def colorOperators (text : Text) : Text := Pattern.codeOperator.replaceAll codeOperator text

/-- Operators begin with a space. -/
theorem spares_codeOperator {c : Char} (other : c ≠ ' ') : Pattern.codeOperator.Spares c := by
  intro before rest
  cases found : Pattern.codeOperator.reach? before (c :: rest) with
  | none => rfl
  | some reach =>
    obtain ⟨operator, others, _, cut, _⟩ := reach?_codeOperator found
    exact absurd (List.cons.inj cut).1 other

theorem colorOperators_spared {knot : Text} (all : ∀ c ∈ knot, isKnot c = true) (rest : Text) :
    colorOperators (knot ++ rest) = knot ++ colorOperators rest := by
  have spared : ∀ c ∈ knot, Pattern.codeOperator.Spares c := by
    intro c member
    refine spares_codeOperator fun same => ?_
    rw [same] at member
    exact absurd (all ' ' member) (by decide)
  rw [colorOperators, replaceAll_eq, replaceFrom_spared spared,
    closed_codeOperator.forward.replaceFrom_eq]
  rfl

theorem colorOperators_plain {c : Char} {rest : Text}
    (absent : Pattern.codeOperator.reach? none (c :: rest) = none) :
    colorOperators (c :: rest) = c :: colorOperators rest := by
  rw [colorOperators, replaceAll_eq, replaceFrom_plain absent,
    closed_codeOperator.forward.replaceFrom_eq]
  rfl

theorem colorOperators_operator {operator : Text} (member : operator ∈ codeOperators)
    (others : Text) :
    colorOperators ((' ' :: operator ++ [' ']) ++ others) =
      ([' '] ++ colored .cyan operator ++ [' ']) ++ colorOperators others := by
  rw [colorOperators, replaceAll_eq,
    replaceFrom_found (by simp) (codeOperator_spaced member others),
    closed_codeOperator.forward.replaceFrom_eq]
  rfl

/-- A text and what coloring of its operators makes of it: an operator is colored between its
spaces, and all else stays. -/
inductive OperatorsColored : (text painted : Text) → Prop where
  | nil : OperatorsColored [] []
  | plain {c rest painted} : c ≠ escape → OperatorsColored rest painted →
      OperatorsColored (c :: rest) (c :: painted)
  | operator {operator rest painted} : operator ∈ codeOperators → OperatorsColored rest painted →
      OperatorsColored ((' ' :: operator ++ [' ']) ++ rest)
        (([' '] ++ colored .cyan operator ++ [' ']) ++ painted)
  | sequence {code rest painted} : IsCode code → OperatorsColored rest painted →
      OperatorsColored (select code ++ rest) (select code ++ painted)
  | torn {code name rest painted} : IsCode code → (∀ c ∈ name, isCallChar c = true) →
      OperatorsColored rest painted →
      OperatorsColored (tornCall code name ++ rest) (tornCall code name ++ painted)

theorem escape_not_mem_operator {operator : Text} (member : operator ∈ codeOperators) :
    escape ∉ ' ' :: operator ++ [' '] := by
  have clear : ∀ operator ∈ codeOperators, escape ∉ ' ' :: operator ++ [' '] := by decide
  exact clear operator member

/-- **Operators are colored in these steps.** -/
theorem operatorsColored {text : Text} (frayed : Frayed text) :
    OperatorsColored text (colorOperators text) := by
  -- an operator may take many plain characters at once, hence an induction on the length
  induction size : text.length using Nat.strongRecOn generalizing text with
  | ind total step =>
  cases frayed with
  | nil => exact .nil
  | @plain c rest plain later =>
    cases found : Pattern.codeOperator.reach? none (c :: rest) with
    | none =>
      rw [colorOperators_plain found]
      exact .plain plain (step rest.length (by simp [← size]) later rfl)
    | some reach =>
      obtain ⟨operator, others, member, cut, _⟩ := reach?_codeOperator found
      have frayed : Frayed (c :: rest) := .plain plain later
      rw [cut] at frayed size ⊢
      have shorter : others.length < total := by
        simp only [List.length_append, List.length_cons] at size
        omega
      rw [colorOperators_operator member]
      exact .operator member
        (step _ shorter (frayed.of_plain (escape_not_mem_operator member)) rfl)
  | @sequence code rest isCode later =>
    have shorter : rest.length < total := by
      simp only [select, List.length_append, List.length_cons] at size
      omega
    rw [colorOperators_spared (isKnot_select isCode)]
    exact .sequence isCode (step _ shorter later rfl)
  | @torn code name rest isCode inside later =>
    have shorter : rest.length < total := by
      simp only [tornCall, List.length_append, List.length_cons] at size
      omega
    rw [colorOperators_spared (isKnot_tornCall isCode inside)]
    exact .torn isCode inside (step _ shorter later rfl)

theorem intact_operator {operator : Text} (member : operator ∈ codeOperators) :
    Intact ([' '] ++ colored .cyan operator ++ [' ']) := by
  have clear : ∀ operator ∈ codeOperators, escape ∉ operator := by decide
  exact ((intact_of_not_mem (by decide)).append
    ((intact_of_not_mem (clear _ member)).colored .cyan)).append (intact_of_not_mem (by decide))

/-- **Operators tear nothing and mend nothing.** -/
theorem frays_colorOperators {text : Text} (frayed : Frayed text) :
    Frays (colorOperators text) (Intact text) := by
  have steps := operatorsColored frayed
  clear frayed
  generalize colorOperators text = painted at steps
  have front {first rest painted new : Text} (plain : Intact first) (intact : Intact new)
      (step : Frays painted (Intact rest)) : Frays (new ++ painted) (Intact (first ++ rest)) :=
    (step.intact_append intact).congr ⟨plain.append, Intact.of_append_right⟩
  induction steps with
  | nil => exact ⟨.nil, Iff.rfl⟩
  | plain plain _ step => exact front (intact_nil.cons plain) (intact_nil.cons plain) step
  | operator member _ step =>
    exact front (intact_of_not_mem (escape_not_mem_operator member)) (intact_operator member) step
  | sequence isCode _ step => exact front (intact_select isCode) (intact_select isCode) step
  | torn isCode inside _ step =>
    exact ⟨.torn isCode inside step.frayed,
      iff_of_false (not_intact_tornCall isCode _) (not_intact_tornCall isCode _)⟩

theorem isKnot_of_isLineBreak {c : Char} (ends : isLineBreak c = true) : isKnot c = false := by
  have each : ∀ c ∈ lineBreaks, isKnot c = false := List.all_iff_forall_prop.mp (by decide)
  exact each c (mem_lineBreaks ends)

/-- A frayed text can be cut behind its first line. -/
theorem frayed_firstLine {line rest : Text} (first : FirstLine line rest)
    (frayed : Frayed (line ++ rest)) : Frayed line ∧ Frayed rest := by
  have behind {words : Text} {c : Char} {others : Text} (ends : isLineBreak c = true)
      (frayed : Frayed (words ++ c :: others)) : Frayed words ∧ c ≠ escape ∧ Frayed others := by
    have plain : c ≠ escape := by
      rintro rfl
      exact absurd ends (by decide)
    have parts := frayed.cut (stops_cons (isKnot_of_isLineBreak ends) others)
    exact ⟨parts.1, plain, parts.2.of_cons plain⟩
  cases first with
  | last _ _ =>
    rw [List.append_nil] at frayed
    exact ⟨frayed, .nil⟩
  | ends _ ends _ =>
    rw [List.append_assoc] at frayed
    obtain ⟨front, plain, back⟩ := behind ends frayed
    exact ⟨front.append (.plain plain .nil), back⟩
  | endsTwice _ =>
    rw [List.append_assoc] at frayed
    obtain ⟨front, _, back⟩ := behind (by decide) frayed
    exact ⟨front.append (.of_not_mem (by decide)), back.of_cons (by decide)⟩

theorem frays_indentLine {line : Text} (frayed : Frayed line) :
    Frays (indentLine line) (Intact line) := by
  unfold indentLine
  split
  · exact frayed.frays
  · exact Frays.intact_append (intact_of_not_mem (by decide)) frayed.frays

/-- **Margins tear nothing and mend nothing.** -/
theorem frays_indent {text : Text} (frayed : Frayed text) : Frays (indent text) (Intact text) := by
  induction text using induction_firstLine with
  | nil => exact ⟨.nil, Iff.rfl⟩
  | next line rest first step =>
    obtain ⟨front, back⟩ := frayed_firstLine first frayed
    rw [indent_firstLine first, front.intact_append_iff]
    exact (frays_indentLine front).append (step back)

/-! ### Code behind its literals -/

/-- What is left to do with code whose literals are colored. -/
def finish (text : Text) : Text := indent (colorOperators (colorCalls text))

/-- **Coloring the rest of code tears exactly the sequences that a name and a parenthesis follow.** -/
theorem frays_finish {text : Text} (intact : Intact text) : Frays (finish text) (¬ GluedCall text) := by
  have calls := frays_colorCalls intact
  have operators := frays_colorOperators calls.frayed
  exact (frays_indent operators.frayed).congr (operators.intact.trans calls.intact)

end Handbook.Colorize
