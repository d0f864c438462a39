/-
**Patterns whose occurrences stand for themselves.**

What a scan finds depends on where it stands: a place where a pattern occurs may be passed over
inside an earlier occurrence. For a steady pattern that makes no difference to what is covered, since
a place inside an occurrence leads no further than the occurrence does. For a solitary pattern no
place inside an occurrence is the beginning of another one at all.

* `Steady.exists_located`: wherever a steady pattern occurs, a listed occurrence covers it;
* `Steady.replaceAll_append`, `replaceAll_passed`: a text is replaced on both sides of a cut into
  which no occurrence reaches, and where none begins it stays;
* `Solitary.replaceAll_found`: wherever a solitary pattern occurs, it is replaced;
* `solitary_unaryOperator` to `steady_flag`: the patterns of prose that are solitary or steady.
-/

import Handbook.Proofs.Pattern.Silent

namespace Handbook.Pattern

open Text Unicode

variable {pattern : Pattern}

/-! ### Steady patterns -/

/-- A pattern that does not look back, and of which an occurrence is one in every text that begins as
it does, up to a longer one; a place inside an occurrence leads no further than the occurrence. -/
structure Steady (pattern : Pattern) : Prop extends pattern.Proper where
  forward : pattern.Forward
  grows : ∀ {before lexeme groups rest},
    pattern.reach? before (lexeme ++ rest) = some ⟨lexeme.length, groups⟩ →
    ∀ rest', ∃ reach, pattern.reach? none (lexeme ++ rest') = some reach ∧
      lexeme.length ≤ reach.size
  nests : ∀ {before first second groups rest reach}, first ≠ [] → second ≠ [] →
    pattern.reach? before (first ++ (second ++ rest)) =
      some ⟨(first ++ second).length, groups⟩ →
    pattern.reach? none (second ++ rest) = some reach → reach.size ≤ second.length
  restricts : ∀ {before first rest reach}, pattern.reach? before (first ++ rest) = some reach →
    reach.size ≤ first.length → pattern.reach? before first = some reach

theorem Delimited.restricts {goesOn : Char → Bool} (delimited : Delimited pattern goesOn)
    {before : Option Char} {first rest : Text} {reach : Reach}
    (found : pattern.reach? before (first ++ rest) = some reach)
    (short : reach.size ≤ first.length) : pattern.reach? before first = some reach := by
  obtain ⟨lexeme, behind, _, cut, size, stops, anywhere⟩ := delimited.occurrence found
  rw [size] at short
  obtain ⟨between, rfl, rfl⟩ := exists_between cut.symm short
  exact anywhere between (stops_of_append stops)

/-- **A pattern whose occurrences are whole runs of a test is steady.** -/
theorem Delimited.steady {goesOn : Char → Bool} (delimited : Delimited pattern goesOn)
    (forward : pattern.Forward)
    (runs : ∀ {before lexeme groups rest},
      pattern.reach? before (lexeme ++ rest) = some ⟨lexeme.length, groups⟩ →
      ∀ c ∈ lexeme, goesOn c = true)
    (grows : ∀ {before lexeme groups rest},
      pattern.reach? before (lexeme ++ rest) = some ⟨lexeme.length, groups⟩ →
      ∀ run, (∀ c ∈ run, goesOn c = true) → ∀ rest', Stops goesOn rest' →
      pattern.reach? none ((lexeme ++ run) ++ rest') = some ⟨(lexeme ++ run).length, groups⟩) :
    pattern.Steady where
  toProper := delimited.proper
  forward := forward
  grows := by
    intro before lexeme groups rest found rest'
    have whole := grows found (rest'.takeWhile goesOn) (fun c => of_mem_takeWhile)
      (rest'.dropWhile goesOn) (stops_dropWhile _ _)
    rw [List.append_assoc, List.takeWhile_append_dropWhile] at whole
    exact ⟨_, whole, by rw [List.length_append]; exact Nat.le_add_right _ _⟩
  nests := by
    intro before first second groups rest reach _ _ found inside
    obtain ⟨lexeme, behind, _, cut, size, stops, _⟩ := delimited.occurrence found
    rw [← List.append_assoc] at cut
    have same : (first ++ second).length = lexeme.length := congrArg Reach.size size
    rw [← (List.append_inj cut same).2] at stops
    obtain ⟨lexeme', behind', _, cut', size', _, _⟩ := delimited.occurrence inside
    refine Nat.le_of_not_lt fun longer => ?_
    rw [size'] at longer
    obtain ⟨more, rfl, rfl⟩ := exists_between cut' (Nat.le_of_lt longer)
    cases more with
    | nil =>
      rw [List.append_nil] at longer
      exact absurd longer (Nat.lt_irrefl _)
    | cons c others =>
      rw [cut', size'] at inside
      have goes := runs inside c (List.mem_append_right _ (List.mem_cons_self ..))
      rw [stops c rfl] at goes
      exact absurd goes (by decide)
  restricts := delimited.restricts

/-- A pattern whose occurrences close themselves, and inside of which no other one begins. -/
structure Solitary (pattern : Pattern) : Prop extends pattern.Closed where
  alone : ∀ {before first second groups rest}, first ≠ [] → second ≠ [] →
    pattern.reach? before (first ++ (second ++ rest)) =
      some ⟨(first ++ second).length, groups⟩ →
    pattern.reach? none (second ++ rest) = none

theorem Closed.reach?_of {before : Option Char} {lexeme rest : Text} {groups : List Text}
    (closed : pattern.Closed)
    (found : pattern.reach? before (lexeme ++ rest) = some ⟨lexeme.length, groups⟩)
    (before' : Option Char) (rest' : Text) :
    pattern.reach? before' (lexeme ++ rest') = some ⟨lexeme.length, groups⟩ := by
  obtain ⟨covered, others, _, _, cut, size, anywhere⟩ := closed.occurrence found
  have length : lexeme.length = covered.length := size
  rw [← (List.append_inj cut length).1] at anywhere
  exact anywhere before' rest'

theorem Delimited.reach?_of {goesOn : Char → Bool} {before : Option Char} {lexeme rest rest' : Text}
    {groups : List Text} (delimited : Delimited pattern goesOn)
    (found : pattern.reach? before (lexeme ++ rest) = some ⟨lexeme.length, groups⟩)
    (stops : Stops goesOn rest') :
    pattern.reach? before (lexeme ++ rest') = some ⟨lexeme.length, groups⟩ := by
  obtain ⟨covered, others, _, cut, size, _, anywhere⟩ := delimited.occurrence found
  rw [← (occurrence_eq cut size).1] at anywhere
  exact anywhere rest' stops

theorem Solitary.steady (solitary : pattern.Solitary) : pattern.Steady where
  toProper := solitary.proper
  forward := solitary.forward
  grows := fun found rest' => ⟨_, solitary.reach?_of found none rest', Nat.le_refl _⟩
  nests := by
    intro before first second groups rest reach nonempty nonempty' found inside
    rw [solitary.alone nonempty nonempty' found] at inside
    exact absurd inside (Option.some_ne_none _).symm
  restricts := solitary.delimited.restricts

/-! ### Scans of steady patterns -/

/-- **Wherever a steady pattern occurs, a listed occurrence covers it.** -/
theorem Steady.exists_located (steady : pattern.Steady) {first lexeme rest : Text}
    {groups : List Text}
    (found : pattern.reach? none (lexeme ++ rest) = some ⟨lexeme.length, groups⟩) :
    ∃ located ∈ pattern.occurrences (first ++ (lexeme ++ rest)),
      located.start ≤ first.length ∧ first.length + lexeme.length ≤ located.stop := by
  have positive : lexeme ≠ [] := List.length_pos_iff.mp (steady.positive found)
  have run {text : Text} {pieces : List Piece} {before : Option Char}
      (steps : Scans pattern before text pieces) : ∀ place first, text = first ++ (lexeme ++ rest) →
        ∃ located ∈ locate place pieces, located.start ≤ place + first.length ∧
          place + first.length + lexeme.length ≤ located.stop := by
    induction steps with
    | nil =>
      intro place first cut
      have empty := (List.append_eq_nil_iff.mp (List.append_eq_nil_iff.mp cut.symm).2).1
      exact absurd empty positive
    | @plain before c others pieces absent _ step =>
      intro place first cut
      cases first with
      | nil =>
        rw [cut, List.nil_append, steady.forward, found] at absent
        exact absurd absent (Option.some_ne_none _)
      | cons d more =>
        obtain ⟨located, member, start, stop⟩ := step (place + 1) more (List.cons.inj cut).2
        rw [List.length_cons]
        exact ⟨located, member, by omega, by omega⟩
    | @found before covered groups' others pieces nonempty here _ step =>
      intro place first cut
      rcases Nat.lt_or_ge first.length covered.length with inside | behind
      · obtain ⟨more, rfl, later⟩ := exists_between cut.symm (Nat.le_of_lt inside)
        refine ⟨_, List.mem_cons_self .., Nat.le_add_right _ _, ?_⟩
        have short : lexeme.length ≤ more.length := by
          by_cases start : first = []
          · -- at the same place the pattern covers the same
            rw [start, List.nil_append] at here
            rw [← later, steady.forward, found] at here
            exact Nat.le_of_eq (congrArg Reach.size (Option.some.inj here))
          · have more_nonempty : more ≠ [] := by
              rintro rfl
              rw [List.append_nil] at inside
              exact absurd inside (Nat.lt_irrefl _)
            rw [later] at found
            rw [List.append_assoc] at here
            exact steady.nests start more_nonempty here found
        simp only [List.length_append]
        omega
      · obtain ⟨more, rfl, later⟩ := exists_between cut behind
        obtain ⟨located, member, start, stop⟩ := step (place + covered.length) more later
        rw [List.length_append]
        exact ⟨located, List.mem_cons_of_mem _ member, by omega, by omega⟩
  obtain ⟨located, member, start, stop⟩ :=
    run (steady.toProper.scans none _) 0 first rfl
  rw [Nat.zero_add] at start stop
  exact ⟨located, member, start, stop⟩

variable {replace : Match → Text}

/-- **On both sides of a cut into which no occurrence reaches, a text is replaced by itself.** -/
theorem Steady.replaceAll_append (steady : pattern.Steady) {first rest : Text}
    (halts : ∀ early late reach, first = early ++ late → late ≠ [] →
      pattern.reach? none (late ++ rest) = some reach → reach.size ≤ late.length) :
    pattern.replaceAll replace (first ++ rest) =
      pattern.replaceAll replace first ++ pattern.replaceAll replace rest := by
  rw [← steady.forward.replaceFrom_eq (lastChar none first) rest]
  refine steady.toProper.replaceFrom_append fun early late cut nonempty => ?_
  rw [steady.forward, steady.forward (lastChar none early) late]
  cases whole : pattern.reach? none (late ++ rest) with
  | some reach => exact (steady.restricts whole (halts early late reach cut nonempty whole)).symm
  | none =>
    cases found : pattern.reach? none late with
    | none => rfl
    | some reach =>
      obtain ⟨lexeme, behind, _, rfl, size⟩ := steady.cut found
      rw [size] at found
      obtain ⟨reach', grown, _⟩ := steady.grows found (behind ++ rest)
      rw [← List.append_assoc, whole] at grown
      exact absurd grown (Option.some_ne_none _).symm

/-- **Where no occurrence begins, a text stays.** -/
theorem replaceAll_passed (forward : pattern.Forward) {stretch rest : Text}
    (absent : ∀ early late, stretch = early ++ late → late ≠ [] →
      pattern.reach? none (late ++ rest) = none) :
    pattern.replaceAll replace (stretch ++ rest) = stretch ++ pattern.replaceAll replace rest := by
  induction stretch with
  | nil => rfl
  | cons c others step =>
    have here := absent [] (c :: others) rfl (List.cons_ne_nil _ _)
    have later := step fun early late cut => absent (c :: early) late (congrArg (c :: ·) cut)
    rw [List.cons_append] at here ⊢
    rw [replaceAll_eq, replaceFrom_plain here, forward.replaceFrom_eq, later, List.cons_append]

/-- **Wherever a solitary pattern occurs, it is replaced.** -/
theorem Solitary.replaceAll_found (solitary : pattern.Solitary) {first lexeme rest : Text}
    {groups : List Text}
    (found : pattern.reach? none (lexeme ++ rest) = some ⟨lexeme.length, groups⟩) :
    pattern.replaceAll replace (first ++ (lexeme ++ rest)) =
      pattern.replaceAll replace first ++
        (replace ⟨lexeme, groups⟩ ++ pattern.replaceAll replace rest) := by
  have nonempty : lexeme ≠ [] := List.length_pos_iff.mp (solitary.proper.positive found)
  have here : pattern.replaceAll replace (lexeme ++ rest) =
      replace ⟨lexeme, groups⟩ ++ pattern.replaceAll replace rest := by
    rw [replaceAll_eq, replaceFrom_found nonempty found, solitary.forward.replaceFrom_eq]
  rw [← here]
  refine solitary.steady.replaceAll_append fun early late reach cut nonempty' whole => ?_
  -- an occurrence that reached over the cut would have this one inside
  refine Nat.le_of_not_lt fun longer => ?_
  obtain ⟨covered, behind, _, split, size⟩ := solitary.proper.cut whole
  rw [size] at longer
  obtain ⟨more, rfl, later⟩ := exists_between split (Nat.le_of_lt longer)
  have more_nonempty : more ≠ [] := by
    rintro rfl
    rw [List.append_nil] at longer
    exact absurd longer (Nat.lt_irrefl _)
  rw [size, later] at whole
  have absent := solitary.alone nonempty' more_nonempty whole
  rw [← later, found] at absent
  exact absurd absent (Option.some_ne_none _)

/-! ### The patterns of prose -/

/-- Behind the first character of an occurrence none begins when that goes for all the characters
there. -/
theorem alone_of_spares {before : Option Char} {first second rest : Text} {groups : List Text}
    (nonempty : first ≠ []) (nonempty' : second ≠ [])
    (found : pattern.reach? before (first ++ (second ++ rest)) =
      some ⟨(first ++ second).length, groups⟩)
    (spares : ∀ {lexeme rest}, pattern.reach? before (lexeme ++ rest) =
      some ⟨lexeme.length, groups⟩ → ∀ c ∈ lexeme.tail, pattern.Spares c) :
    pattern.reach? none (second ++ rest) = none := by
  cases first with
  | nil => exact absurd rfl nonempty
  | cons c others =>
    cases second with
    | nil => exact absurd rfl nonempty'
    | cons d more =>
      rw [← List.append_assoc] at found
      exact spares found d (List.mem_append_right _ (List.mem_cons_self ..)) none _

theorem solitary_unaryOperator : unaryOperator.Solitary where
  toClosed := closed_unaryOperator
  alone := by
    intro before first second groups rest nonempty nonempty' found
    refine alone_of_spares nonempty nonempty' found fun {lexeme rest} found c member => ?_
    obtain ⟨operator, later, _, cut, size⟩ := reach?_unaryOperator found
    rw [(occurrence_eq cut size).1] at member
    rw [List.mem_singleton.mp member]
    exact begins_unaryOperator.spares (by decide)

theorem solitary_binaryOperator : binaryOperator.Solitary where
  toClosed := closed_binaryOperator
  alone := by
    intro before first second groups rest nonempty nonempty' found
    refine alone_of_spares nonempty nonempty' found fun {lexeme rest} found c member => ?_
    obtain ⟨operator, later, isOperator, cut, size⟩ := reach?_binaryOperator found
    rw [(occurrence_eq cut size).1] at member
    have other : ∀ operator ∈ binaryOperators,
        'x' ∉ (['x', ' '] ++ operator ++ [' ', 'y']).tail := by decide
    refine begins_binaryOperator.spares fun opening one => ?_
    rw [List.mem_singleton.mp one]
    refine ⟨by decide, fun same => other operator isOperator ?_⟩
    have letter : 'x' = c := Option.some.inj same
    rwa [letter]

theorem solitary_slice : slice.Solitary where
  toClosed := closed_slice
  alone := by
    intro before first second groups rest nonempty nonempty' found
    cases inside : slice.reach? none (second ++ rest) with
    | none => rfl
    | some reach =>
      rw [← List.append_assoc] at found
      obtain ⟨letters, later, _, all, cut, size⟩ := reach?_slice found
      obtain ⟨same, _⟩ := occurrence_eq cut size
      obtain ⟨_, _, _, _, behind, _⟩ := reach?_slice inside
      obtain ⟨c, others, rfl⟩ := List.exists_cons_of_ne_nil nonempty
      obtain ⟨d, tail, rfl⟩ := List.exists_cons_of_ne_nil nonempty'
      obtain ⟨rfl, next⟩ := List.cons.inj behind
      have ends : 'x' :: tail <:+ letters ++ [']'] := by
        rcases List.suffix_cons_iff.mp ⟨others, (List.cons.inj same).2⟩ with whole | later
        · exact absurd (List.cons.inj whole).1 (by decide)
        · exact later
      -- another slice would have its bracket among the letters of this one
      cases tail with
      | nil =>
        have last := ends.getLast (List.cons_ne_nil _ _)
        simp at last
      | cons e more =>
        have bracket : '[' ∈ letters ++ [']'] := by
          refine ends.subset ?_
          rw [(List.cons.inj next).1]
          exact List.mem_cons_of_mem _ (List.mem_cons_self ..)
        rcases List.mem_append.mp bracket with early | late
        · exact absurd (all '[' early) (by decide)
        · exact absurd late (by decide)

theorem steady_url : url.Steady :=
  delimited_url.steady (fun _ _ => rfl)
    (by
      intro before lexeme groups rest found c member
      obtain ⟨scheme, address, later, isScheme, _, visible, _, cut, size⟩ := reach?_url found
      rw [(occurrence_eq cut size).1] at member
      have plain : ∀ scheme ∈ schemes, scheme.all (!isBlank ·) = true := by decide
      rcases List.mem_append.mp member with early | late
      · exact List.all_eq_true.mp (plain scheme isScheme) c early
      · rw [visible c late]
        rfl)
    (by
      intro before lexeme groups rest found run all rest' stops
      obtain ⟨scheme, address, later, isScheme, nonempty, visible, _, cut, size⟩ := reach?_url found
      obtain ⟨rfl, rfl⟩ := occurrence_eq cut size
      have longer : ∀ c ∈ address ++ run, isBlank c = false := fun c member => by
        rcases List.mem_append.mp member with early | late
        · exact visible c early
        · simpa using all c late
      have whole := @url_address none scheme (address ++ run) rest' isScheme (by simp [nonempty])
        longer stops
      rwa [← List.append_assoc] at whole)

theorem steady_flag : flag.Steady :=
  delimited_flag.steady (fun _ _ => rfl)
    (by
      intro before lexeme groups rest found c member
      obtain ⟨name, later, _, all, _, cut, size⟩ := reach?_flag found
      rw [(occurrence_eq cut size).1] at member
      have hyphens : ∀ c ∈ ['-', '-'], isFlagChar c = true := List.all_eq_true.mp (by decide)
      exact (List.mem_append.mp member).elim (hyphens c) (all c))
    (by
      intro before lexeme groups rest found run inside rest' stops
      obtain ⟨name, later, nonempty, all, _, cut, size⟩ := reach?_flag found
      obtain ⟨rfl, rfl⟩ := occurrence_eq cut size
      have longer : ∀ c ∈ name ++ run, isFlagChar c = true := fun c member =>
        (List.mem_append.mp member).elim (all c) (inside c)
      have whole := @flag_name none (name ++ run) rest' (by simp [nonempty]) longer stops
      rwa [← List.append_assoc] at whole)

end Handbook.Pattern
