/-
**Texts with torn sequences.**

Where the last letter of a color sequence is taken for the beginning of a name, it is colored
together with the name, and the sequence is torn: a new one starts before it has ended. A text is
frayed when its escape characters begin either whole sequences or torn ones.

* `intact_append_iff`: frayed texts are intact part by part;
* `escape_mem_swept`: a torn sequence leaves its escape character behind;
* `intact_stripColors`: without its colors a frayed text is whole again;
* `Frayed.cut`: before a character that is in no sequence and in no name, a frayed text can be cut.
-/

import Handbook.Pattern.Code
import Handbook.Proofs.Terminal.Sweep

namespace Handbook.Terminal

open Pattern Text

/-- The name of a call with the last letter of the sequence before it, in blue, behind the rest of
that sequence. -/
def tornCall (code name : Text) : Text := (escape :: '[' :: code) ++ colored .blue ('m' :: name)

/-- A text in which every escape character begins a whole color sequence or a torn one. -/
inductive Frayed : Text → Prop where
  | nil : Frayed []
  | plain {c rest} : c ≠ escape → Frayed rest → Frayed (c :: rest)
  | sequence {code rest} : IsCode code → Frayed rest → Frayed (select code ++ rest)
  | torn {code name rest} : IsCode code → (∀ c ∈ name, isCallChar c = true) → Frayed rest →
      Frayed (tornCall code name ++ rest)

namespace Frayed

variable {first second text rest : Text}

theorem append (one : Frayed first) (two : Frayed second) : Frayed (first ++ second) := by
  induction one with
  | nil => exact two
  | plain plain _ step => exact .plain plain step
  | sequence isCode _ step =>
    rw [List.append_assoc]
    exact .sequence isCode step
  | torn isCode inside _ step =>
    rw [List.append_assoc]
    exact .torn isCode inside step

theorem of_intact (intact : Intact text) : Frayed text := by
  induction intact using Intact.induction with
  | nil => exact .nil
  | plain c rest plain _ step => exact .plain plain step
  | sequence code rest isCode _ step => exact .sequence isCode step

theorem of_not_mem (clear : escape ∉ text) : Frayed text := of_intact (intact_of_not_mem clear)

/-- A character that is no escape character is plain. -/
theorem of_cons {c : Char} (frayed : Frayed (c :: rest)) (plain : c ≠ escape) : Frayed rest := by
  generalize whole : c :: rest = text at frayed
  cases frayed with
  | nil => exact absurd whole (List.cons_ne_nil _ _)
  | plain _ later =>
    rw [List.cons.injEq] at whole
    rw [whole.2]
    exact later
  | sequence _ _ => exact absurd (List.cons.inj whole).1 plain
  | torn _ _ _ => exact absurd (List.cons.inj whole).1 plain

theorem of_plain (clear : escape ∉ first) (frayed : Frayed (first ++ rest)) : Frayed rest := by
  induction first with
  | nil => exact frayed
  | cons c others step =>
    rw [List.mem_cons, not_or] at clear
    exact step clear.2 (frayed.of_cons (Ne.symm clear.1))

end Frayed

/-! ### Torn sequences -/

theorem swept_tornCall {pattern : Pattern} (sweeps : Sweeps pattern) {code name : Text}
    (isCode : IsCode code) (rest : Text) :
    swept pattern (tornCall code name ++ rest) =
      (escape :: '[' :: code) ++ swept pattern (colored .blue ('m' :: name) ++ rest) := by
  rw [tornCall, List.append_assoc]
  exact swept_torn sweeps isCode _

/-- **A torn sequence leaves its escape character behind.** -/
theorem escape_mem_swept_tornCall {pattern : Pattern} (sweeps : Sweeps pattern) {code name : Text}
    (isCode : IsCode code) (rest : Text) : escape ∈ swept pattern (tornCall code name ++ rest) := by
  rw [swept_tornCall sweeps isCode]
  exact List.mem_append_left _ (List.mem_cons_self ..)

theorem not_intact_tornCall {code name : Text} (isCode : IsCode code) (rest : Text) :
    ¬ Intact (tornCall code name ++ rest) := fun intact =>
  escape_not_mem_swept sweeps_colorSequence intact
    (escape_mem_swept_tornCall sweeps_colorSequence isCode rest)

theorem Frayed.escape_mem_swept {pattern : Pattern} (sweeps : Sweeps pattern) {text : Text}
    (frayed : Frayed text) (notIntact : ¬ Intact text) : escape ∈ swept pattern text := by
  induction frayed with
  | nil => exact absurd intact_nil notIntact
  | plain plain _ step =>
    rw [swept_cons sweeps plain]
    exact List.mem_cons_of_mem _ (step fun intact => notIntact (intact.cons plain))
  | sequence isCode _ step =>
    rw [swept_select sweeps isCode]
    exact step fun intact => notIntact ((intact_select isCode).append intact)
  | torn isCode _ _ _ => exact escape_mem_swept_tornCall sweeps isCode _

/-- **Frayed texts are intact part by part.** -/
theorem Frayed.intact_append_iff {first second : Text} (frayed : Frayed first) :
    Intact (first ++ second) ↔ Intact first ∧ Intact second := by
  refine ⟨fun intact => ⟨?_, intact.of_append_right⟩, fun both => both.1.append both.2⟩
  induction frayed with
  | nil => exact intact_nil
  | plain plain _ step => exact (step intact.of_cons).cons plain
  | sequence isCode _ step =>
    rw [List.append_assoc] at intact
    exact (intact_select isCode).append (step intact.of_append_right)
  | torn isCode _ _ _ =>
    rw [List.append_assoc] at intact
    exact absurd intact (not_intact_tornCall isCode _)

/-- A frayed text that is intact exactly when a statement holds. -/
structure Frays (text : Text) (whole : Prop) : Prop where
  frayed : Frayed text
  intact : Intact text ↔ whole

theorem Frayed.frays {text : Text} (frayed : Frayed text) : Frays text (Intact text) :=
  ⟨frayed, Iff.rfl⟩

theorem Frays.append {first second : Text} {one two : Prop} (front : Frays first one)
    (back : Frays second two) : Frays (first ++ second) (one ∧ two) where
  frayed := front.frayed.append back.frayed
  intact := by rw [front.frayed.intact_append_iff, front.intact, back.intact]

theorem Frays.intact_append {first second : Text} {whole : Prop} (front : Intact first)
    (back : Frays second whole) : Frays (first ++ second) whole where
  frayed := (Frayed.of_intact front).append back.frayed
  intact := by rw [(Frayed.of_intact front).intact_append_iff, and_iff_right front, back.intact]

theorem Frays.congr {text : Text} {one two : Prop} (frays : Frays text one) (same : one ↔ two) :
    Frays text two :=
  ⟨frays.frayed, frays.intact.trans same⟩

/-- **Without its colors a frayed text is whole again.** -/
theorem Frayed.intact_stripColors {text : Text} (frayed : Frayed text) :
    Intact (stripColors text) := by
  induction frayed with
  | nil => exact intact_of_not_mem (escape_not_mem_swept sweeps_colorSequence intact_nil)
  | plain plain _ step =>
    rw [stripColors_cons plain]
    exact step.cons plain
  | sequence isCode _ step =>
    rw [stripColors_eq, swept_select sweeps_colorSequence isCode]
    exact step
  | @torn code name rest isCode inside _ step =>
    have clear : escape ∉ 'm' :: name := by
      rw [List.mem_cons, not_or]
      exact ⟨by decide, fun member => absurd (inside escape member) (by decide)⟩
    have whole := intact_of_not_mem clear
    have healed : stripColors (tornCall code name ++ rest) =
        select code ++ (name ++ stripColors rest) := by
      rw [stripColors_eq, swept_tornCall sweeps_colorSequence isCode, ← stripColors_eq,
        stripColors_append (whole.colored .blue), stripColors_colored .blue whole,
        stripColors_of_not_mem clear]
      simp [select]
    rw [healed]
    exact (intact_select isCode).append ((intact_of_not_mem fun member =>
      clear (List.mem_cons_of_mem _ member)).append step)

/-- A text with a torn sequence has at least two escape characters. -/
theorem Frayed.two_le_count {text : Text} (frayed : Frayed text) (notIntact : ¬ Intact text) :
    2 ≤ text.count escape := by
  induction frayed with
  | nil => exact absurd intact_nil notIntact
  | plain plain _ step =>
    have later := step fun intact => notIntact (intact.cons plain)
    exact Nat.le_trans later List.count_le_count_cons
  | sequence isCode _ step =>
    have later := step fun intact => notIntact ((intact_select isCode).append intact)
    rw [List.count_append]
    omega
  | torn isCode _ _ _ =>
    simp only [tornCall, colored, styled, reset, select, List.cons_append, List.nil_append,
      List.count_append, List.count_cons, beq_self_eq_true, if_true]
    omega

/-! ### Cutting frayed texts -/

/-- Whether a character can stand in a sequence or in the name of a call. -/
def isKnot (c : Char) : Bool := c == escape || isInner c || isCallChar c

theorem isKnot_select {code : Text} (isCode : IsCode code) : ∀ c ∈ select code, isKnot c = true := by
  intro c member
  rcases mem_select isCode member with rfl | inner
  · decide
  · simp [isKnot, inner]

theorem isKnot_tornCall {code name : Text} (isCode : IsCode code)
    (inside : ∀ c ∈ name, isCallChar c = true) : ∀ c ∈ tornCall code name, isKnot c = true := by
  intro c member
  rw [tornCall, List.mem_append] at member
  rcases member with early | late
  · refine isKnot_select isCode c (List.mem_append_left _ early)
  · rw [colored, styled, List.mem_append, List.mem_append, List.mem_cons] at late
    rcases late with (sequence | rfl | member) | sequence
    · exact isKnot_select (isCode_color .blue) c sequence
    · decide
    · simp [isKnot, inside c member]
    · exact isKnot_select isCode_zero c sequence

/-- **Before a character that is in no sequence and in no name, a frayed text can be cut.** -/
theorem Frayed.cut {first second : Text} (frayed : Frayed (first ++ second))
    (stops : Stops isKnot second) : Frayed first ∧ Frayed second := by
  generalize whole : first ++ second = text at frayed
  induction frayed generalizing first with
  | nil =>
    obtain ⟨rfl, rfl⟩ := List.append_eq_nil_iff.mp whole
    exact ⟨.nil, .nil⟩
  | @plain c rest plain later step =>
    cases first with
    | nil =>
      rw [List.nil_append] at whole
      rw [whole]
      exact ⟨.nil, .plain plain later⟩
    | cons d others =>
      rw [List.cons_append, List.cons.injEq] at whole
      obtain ⟨rfl, whole⟩ := whole
      exact ⟨.plain plain (step whole).1, (step whole).2⟩
  | sequence isCode _ step =>
    obtain ⟨between, rfl, cut⟩ := exists_of_stops (isKnot_select isCode) stops whole.symm
    exact ⟨.sequence isCode (step cut.symm).1, (step cut.symm).2⟩
  | torn isCode inside _ step =>
    obtain ⟨between, rfl, cut⟩ := exists_of_stops (isKnot_tornCall isCode inside) stops whole.symm
    exact ⟨.torn isCode inside (step cut.symm).1, (step cut.symm).2⟩

theorem Frayed.cut_lineFeed {first second : Text} (frayed : Frayed (first ++ '\n' :: second)) :
    Frayed first ∧ Frayed second := by
  have parts := frayed.cut (stops_cons (by decide) second)
  exact ⟨parts.1, parts.2.of_cons (by decide)⟩

/-- Around a line feed a text is intact on both sides, or not intact. -/
theorem intact_lineFeed_iff {first second : Text} :
    Intact (first ++ '\n' :: second) ↔ Intact first ∧ Intact second := by
  constructor
  · intro intact
    exact ⟨intact.of_stops (stops_cons (by decide) second), intact.of_append_right.of_cons⟩
  · rintro ⟨front, back⟩
    exact front.append (back.cons (by decide))

end Handbook.Terminal
