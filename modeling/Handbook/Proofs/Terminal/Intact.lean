/-
**Texts with whole color sequences.**

A text is intact when every escape character in it begins a whole color sequence. Such a text is
made of plain characters and of sequences.

* `select_append_inj`, `exists_of_select`: where a sequence stands in a text;
* `Intact.append`, `Intact.of_append_right`: intact texts and their parts;
* `Intact.of_stops`, `Intact.of_closed`: a text is cut between two sequences where the part behind
  the cut starts, or the part before it ends, with a character that cannot stand there in a sequence;
* `Intact.induction`: what holds of plain characters and of sequences holds of intact texts.
-/

import Handbook.Proofs.Text.Cut
import Handbook.Terminal.Style

namespace Handbook.Terminal

open Text

/-! ### Sequences -/

/-- The code of a color sequence: one digit or more. -/
def IsCode (code : Text) : Prop := code ≠ [] ∧ ∀ c ∈ code, c.isDigit = true

/-- Whether a character can stand in a color sequence behind the escape character. -/
def isInner (c : Char) : Bool := c == '[' || c.isDigit || c == 'm'

theorem isCode_of_all {code : Text} (nonempty : code ≠ []) (digits : code.all Char.isDigit = true) :
    IsCode code :=
  ⟨nonempty, List.all_eq_true.mp digits⟩

theorem isCode_color (shade : Color) : IsCode shade.code := by
  cases shade <;> exact isCode_of_all (List.cons_ne_nil _ _) (by decide)

theorem isCode_style (style : Style) : IsCode style.code := by
  cases style with
  | color shade => exact isCode_color shade
  | dim => exact isCode_of_all (List.cons_ne_nil _ _) (by decide)

theorem isCode_zero : IsCode ['0'] := isCode_of_all (List.cons_ne_nil _ _) (by decide)

theorem escape_not_mem_code {code : Text} (isCode : IsCode code) : escape ∉ code := by
  intro member
  exact absurd (isCode.2 escape member) (by decide)

theorem isInner_of_mem_code {code : Text} (isCode : IsCode code) {c : Char} (member : c ∈ code) :
    isInner c = true := by
  simp [isInner, isCode.2 c member]

/-- Every character of a color sequence is the escape character or one that can stand behind it. -/
theorem mem_select {code : Text} (isCode : IsCode code) {c : Char} (member : c ∈ select code) :
    c = escape ∨ isInner c = true := by
  simp only [select, List.cons_append, List.nil_append, List.mem_cons, List.mem_append,
    List.not_mem_nil, or_false] at member
  rcases member with rfl | rfl | digit | rfl
  · exact Or.inl rfl
  · exact Or.inr rfl
  · exact Or.inr (isInner_of_mem_code isCode digit)
  · exact Or.inr rfl

/-- A sequence at the start of a text can be told from what follows it. -/
theorem select_append_inj {code other rest rest' : Text} (isCode : IsCode code)
    (isOther : IsCode other) (same : select code ++ rest = select other ++ rest') :
    code = other ∧ rest = rest' := by
  have stops (behind : Text) : Stops Char.isDigit ('m' :: behind) := stops_cons (by decide) behind
  simp only [select, List.cons_append, List.nil_append, List.append_assoc, List.cons.injEq,
    true_and] at same
  have codes : code = other := by
    rw [← takeWhile_cut isCode.2 (stops rest), same, takeWhile_cut isOther.2 (stops rest')]
  rw [codes] at same
  exact ⟨codes, (List.cons.inj (List.append_cancel_left same)).2⟩

/-- A sequence behind another one stands behind all that has no sequence. -/
theorem exists_of_select {code other stretch first rest rest' : Text} (isCode : IsCode code)
    (isOther : IsCode other) (clear : escape ∉ stretch)
    (whole : select code ++ (stretch ++ rest) = first ++ (select other ++ rest')) :
    (first = [] ∧ rest' = stretch ++ rest) ∨
      ∃ between, first = select code ++ (stretch ++ between) ∧
        rest = between ++ (select other ++ rest') := by
  cases first with
  | nil => exact Or.inl ⟨rfl, (select_append_inj isCode isOther whole).2.symm⟩
  | cons c more =>
    have parts : escape :: ((('[' :: code ++ ['m']) ++ stretch) ++ rest) =
        (c :: more) ++ (select other ++ rest') := by
      rw [← whole]
      simp [select]
    have inside : ∀ d ∈ ('[' :: code ++ ['m']) ++ stretch, (d != escape) = true := by
      intro d member
      rw [bne_iff_ne]
      rintro rfl
      rcases List.mem_append.mp member with early | late
      · have absent := escape_not_mem_code isCode
        simp only [escape] at absent early
        simp [absent] at early
      · exact clear late
    have stops : Stops (· != escape) (select other ++ rest') := stops_cons (by decide) _
    obtain ⟨rfl, later⟩ := List.cons.inj parts
    obtain ⟨between, rfl, behind⟩ := exists_of_stops inside stops later
    exact Or.inr ⟨between, by simp [select], behind⟩

/-! ### Intact texts -/

/-- A text in which every escape character begins a whole color sequence. -/
def Intact (text : Text) : Prop :=
  ∀ before after, text = before ++ escape :: after →
    ∃ code rest, IsCode code ∧ escape :: after = select code ++ rest

theorem intact_of_not_mem {text : Text} (clear : escape ∉ text) : Intact text := by
  intro before after cut
  exact absurd (cut ▸ List.mem_append_right _ (List.mem_cons_self ..)) clear

theorem intact_nil : Intact [] := intact_of_not_mem List.not_mem_nil

/-- **The end of an intact text is intact.** -/
theorem Intact.of_append_right {first second : Text} (intact : Intact (first ++ second)) :
    Intact second := by
  intro before after cut
  exact intact (first ++ before) after (by rw [cut, List.append_assoc])

/-- **Two intact texts make one.** -/
theorem Intact.append {first second : Text} (one : Intact first) (two : Intact second) :
    Intact (first ++ second) := by
  intro before after cut
  rcases List.append_eq_append_iff.mp cut with ⟨between, rfl, later⟩ | ⟨between, earlier, later⟩
  · exact two between after later
  · cases between with
    | nil => exact two [] after later.symm
    | cons c others =>
      rw [List.cons_append, List.cons.injEq] at later
      obtain ⟨rfl, rfl⟩ := later
      obtain ⟨code, rest, isCode, whole⟩ := one before others earlier
      refine ⟨code, rest ++ second, isCode, ?_⟩
      rw [← List.append_assoc, ← whole, List.cons_append]

theorem Intact.cons {c : Char} {rest : Text} (plain : c ≠ escape) (intact : Intact rest) :
    Intact (c :: rest) :=
  (intact_of_not_mem (by simpa using plain.symm) : Intact [c]).append intact

theorem Intact.of_cons {c : Char} {rest : Text} (intact : Intact (c :: rest)) : Intact rest :=
  @Intact.of_append_right [c] rest intact

theorem Intact.whole {rest : Text} (intact : Intact (escape :: rest)) :
    ∃ code others, IsCode code ∧ escape :: rest = select code ++ others :=
  intact [] rest rfl

theorem intact_select {code : Text} (isCode : IsCode code) : Intact (select code) := by
  intro before after cut
  cases before with
  | nil => exact ⟨code, [], isCode, by rw [List.append_nil, cut, List.nil_append]⟩
  | cons c others =>
    simp only [select, List.cons_append, List.nil_append, List.cons.injEq] at cut
    have later : escape ∈ '[' :: (code ++ ['m']) := cut.2 ▸
      List.mem_append_right _ (List.mem_cons_self ..)
    simp only [List.mem_cons, List.mem_append, List.not_mem_nil, or_false] at later
    rcases later with bracket | digit | letter
    · exact absurd bracket (by decide)
    · exact absurd digit (escape_not_mem_code isCode)
    · exact absurd letter (by decide)

/-- **A styled intact text is intact.** -/
theorem Intact.styled {text : Text} (style : Style) (intact : Intact text) :
    Intact (styled style text) :=
  ((intact_select (isCode_style style)).append intact).append (intact_select isCode_zero)

theorem Intact.colored {text : Text} (shade : Color) (intact : Intact text) :
    Intact (colored shade text) :=
  intact.styled (.color shade)

/-- **An intact text is made of plain characters and of whole sequences.** -/
@[elab_as_elim]
theorem Intact.induction {motive : (text : Text) → Intact text → Prop}
    (nil : motive [] intact_nil)
    (plain : ∀ c rest (plain : c ≠ escape) (intact : Intact rest), motive rest intact →
      motive (c :: rest) (intact.cons plain))
    (sequence : ∀ code rest (isCode : IsCode code) (intact : Intact rest), motive rest intact →
      motive (select code ++ rest) ((intact_select isCode).append intact))
    {text : Text} (intact : Intact text) : motive text intact := by
  induction size : text.length using Nat.strongRecOn generalizing text with
  | ind size step =>
  cases text with
  | nil => exact nil
  | cons c rest =>
    by_cases isEscape : c = escape
    · subst isEscape
      obtain ⟨code, others, isCode, whole⟩ := intact.whole
      revert intact
      rw [whole] at size ⊢
      intro intact
      have later := intact.of_append_right
      refine sequence code others isCode later (step others.length ?_ later rfl)
      simp only [select, List.length_append, List.length_cons] at size
      omega
    · refine plain c rest isEscape intact.of_cons (step rest.length ?_ intact.of_cons rfl)
      rw [List.length_cons] at size
      omega

/-! ### Cutting intact texts -/

/-- The part of a sequence that stands before a cut inside it has no last letter yet, and the part
behind the cut starts with an inner character. -/
theorem Intact.of_cut {first second : Text} (intact : Intact (first ++ second))
    (outside : ∀ before code inside, IsCode code → first = before ++ escape :: inside →
      inside <+: '[' :: code → ∀ c ∈ second.head?, isInner c = true → False) :
    Intact first := by
  intro before after cut
  obtain ⟨code, rest, isCode, whole⟩ := intact before (after ++ second)
    (by rw [cut, List.append_assoc, List.cons_append])
  simp only [select, List.cons_append, List.nil_append, List.append_assoc, List.cons.injEq,
    true_and] at whole
  have parts : after ++ second = ('[' :: code) ++ ('m' :: rest) := by rw [whole, List.cons_append]
  rcases List.append_eq_append_iff.mp parts with ⟨between, later, head⟩ | ⟨between, rfl, later⟩
  · -- the cut lies inside the bracket and the code, or right behind them
    refine (outside before code after isCode cut ⟨between, later.symm⟩ (between.head?.getD 'm') ?_
      ?_).elim
    · cases between with
      | nil => simp [head]
      | cons c others => simp [head]
    · cases between with
      | nil => rfl
      | cons c others =>
        have member : c ∈ '[' :: code := later ▸ List.mem_append_right _ (List.mem_cons_self ..)
        rcases List.mem_cons.mp member with rfl | digit
        · rfl
        · exact isInner_of_mem_code isCode digit
  · cases between with
    | nil =>
      refine (outside before code _ isCode cut ⟨[], by simp⟩ 'm' ?_ rfl).elim
      rw [← List.nil_append second, ← later]
      rfl
    | cons c others =>
      rw [List.cons_append, List.cons.injEq] at later
      obtain ⟨rfl, -⟩ := later
      exact ⟨code, others, isCode, by simp [select]⟩

/-- **Before a character that no sequence has behind its start, an intact text can be cut.** -/
theorem Intact.of_stops {first second : Text} (intact : Intact (first ++ second))
    (stops : Stops isInner second) : Intact first :=
  intact.of_cut fun _ _ _ _ _ _ c member inner => by
    rw [stops c member] at inner
    exact absurd inner (by decide)

/-- **Behind a character that no sequence has before its end, an intact text can be cut.** -/
theorem Intact.of_closed {first second : Text} {last : Char}
    (intact : Intact (first ++ [last] ++ second)) (plain : last ≠ escape)
    (outer : isInner last = false) : Intact (first ++ [last]) :=
  intact.of_cut fun before code inside isCode cut early _ _ _ => by
    have ends := congrArg List.getLast? cut
    rw [List.getLast?_concat, List.getLast?_append, List.getLast?_cons] at ends
    simp only [Option.some_or, Option.some.injEq] at ends
    cases shape : inside.getLast? with
    | none =>
      rw [shape] at ends
      exact plain ends
    | some c =>
      rw [shape, Option.getD_some] at ends
      subst ends
      rcases List.mem_cons.mp (early.subset (List.mem_of_getLast? shape)) with rfl | digit
      · exact absurd outer (by decide)
      · rw [isInner_of_mem_code isCode digit] at outer
        exact absurd outer (by decide)

end Handbook.Terminal
