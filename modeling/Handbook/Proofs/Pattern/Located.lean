/-
**Where occurrences stand.**

The occurrences of a pattern are listed with the places where they start and stop, and none reaches
into the next one. A pattern clears a stretch of a text when none of its occurrences reaches into the
stretch; a scan then passes over the stretch character by character.

* `exists_of_mem_occurrences`: what stands where an occurrence is listed;
* `stop_le_of_mem_occurrences`: no occurrence reaches into a later one;
* `Clears.exists_pieces`: a scan passes over a stretch that its pattern clears;
* `Clears.extend`, `Clears.extend_left`: where no occurrence can begin, a cleared stretch goes on, and
  where none can end, it begins sooner.
-/

import Handbook.Proofs.Pattern.Scan
import Handbook.Proofs.Text.Cut

namespace Handbook.Pattern

open Text

variable {pattern : Pattern} {pieces : List Piece}

/-! ### Listed occurrences -/

theorem locate_append (place : Nat) (one two : List Piece) :
    locate place (one ++ two) =
      locate place one ++ locate (place + (one.flatMap Piece.text).length) two := by
  induction one generalizing place with
  | nil => rfl
  | cons piece others step =>
    rw [List.flatMap_cons, List.length_append, ← Nat.add_assoc]
    cases piece with
    | plain c => exact step (place + 1)
    | found occurrence =>
      exact congrArg (_ :: ·) (step (place + occurrence.lexeme.length))

/-- What is listed stands where it is looked for. -/
theorem bounds_of_mem_locate {place : Nat} {located : Located}
    (member : located ∈ locate place pieces) :
    place ≤ located.start ∧ located.start ≤ located.stop ∧
      located.stop ≤ place + (pieces.flatMap Piece.text).length := by
  induction pieces generalizing place with
  | nil => exact absurd member List.not_mem_nil
  | cons piece others step =>
    rw [List.flatMap_cons, List.length_append]
    cases piece with
    | plain c =>
      obtain ⟨low, order, high⟩ := step member
      rw [show (Piece.plain c).text.length = 1 from rfl]
      omega
    | found occurrence =>
      rw [show (Piece.found occurrence).text = occurrence.lexeme from rfl]
      rcases List.mem_cons.mp member with rfl | later
      · exact ⟨Nat.le_refl _, Nat.le_add_right _ _, by simp only; omega⟩
      · obtain ⟨low, order, high⟩ := step later
        omega

theorem stop_le_of_mem_locate {place : Nat} {one other : Located}
    (member : one ∈ locate place pieces) (member' : other ∈ locate place pieces)
    (sooner : one.start < other.start) : one.stop ≤ other.start := by
  induction pieces generalizing place with
  | nil => exact absurd member List.not_mem_nil
  | cons piece others step =>
    cases piece with
    | plain c => exact step member member'
    | found occurrence =>
      rcases List.mem_cons.mp member with rfl | later
      · rcases List.mem_cons.mp member' with rfl | later'
        · exact absurd sooner (Nat.lt_irrefl _)
        · exact (bounds_of_mem_locate later').1
      · rcases List.mem_cons.mp member' with rfl | later'
        · have low := (bounds_of_mem_locate later).1
          simp only at sooner
          omega
        · exact step later later'

/-- **No occurrence reaches into a later one.** -/
theorem stop_le_of_mem_occurrences {text : Text} {one other : Located}
    (member : one ∈ pattern.occurrences text) (member' : other ∈ pattern.occurrences text)
    (sooner : one.start < other.start) : one.stop ≤ other.start :=
  stop_le_of_mem_locate member member' sooner

theorem Scans.exists_of_mem {before : Option Char} {text : Text}
    (scans : Scans pattern before text pieces) {place : Nat} {located : Located}
    (member : located ∈ locate place pieces) :
    ∃ first lexeme rest, lexeme ≠ [] ∧ text = first ++ (lexeme ++ rest) ∧
      pattern.reach? (lastChar before first) (lexeme ++ rest) =
        some ⟨lexeme.length, located.groups⟩ ∧
      located.start = place + first.length ∧ located.stop = located.start + lexeme.length := by
  induction scans generalizing place with
  | nil => exact absurd member List.not_mem_nil
  | @plain _ c _ _ _ _ step =>
    obtain ⟨first, lexeme, rest, nonempty, rfl, found, start, stop⟩ := step member
    refine ⟨c :: first, lexeme, rest, nonempty, rfl, ?_, ?_, stop⟩
    · rwa [lastChar_cons]
    · rw [start, List.length_cons]
      omega
  | @found _ covered _ _ _ nonempty found _ step =>
    rcases List.mem_cons.mp member with rfl | later
    · exact ⟨[], covered, _, nonempty, rfl, found, rfl, rfl⟩
    · obtain ⟨first, lexeme, rest, nonempty, rfl, found, start, stop⟩ := step later
      refine ⟨covered ++ first, lexeme, rest, nonempty, ?_, ?_, ?_, stop⟩
      · rw [List.append_assoc]
      · rwa [lastChar_append]
      · rw [start, List.length_append, Nat.add_assoc]

/-- **What stands where an occurrence is listed.** -/
theorem Proper.exists_of_mem_occurrences (proper : pattern.Proper) {text : Text} {located : Located}
    (member : located ∈ pattern.occurrences text) :
    ∃ first lexeme rest, lexeme ≠ [] ∧ text = first ++ (lexeme ++ rest) ∧
      pattern.reach? (lastChar none first) (lexeme ++ rest) =
        some ⟨lexeme.length, located.groups⟩ ∧
      located.start = first.length ∧ located.stop = first.length + lexeme.length := by
  obtain ⟨first, lexeme, rest, nonempty, cut, found, start, stop⟩ :=
    (proper.scans none text).exists_of_mem member
  rw [Nat.zero_add] at start
  exact ⟨first, lexeme, rest, nonempty, cut, found, start, by rw [stop, start]⟩

/-! ### Scans that find nothing -/

theorem eq_map_plain_of_locate {place : Nat} (absent : locate place pieces = []) :
    pieces = (pieces.flatMap Piece.text).map .plain := by
  induction pieces generalizing place with
  | nil => rfl
  | cons piece others step =>
    cases piece with
    | plain c => exact congrArg (_ :: ·) (step absent)
    | found occurrence => exact absurd absent (List.cons_ne_nil _ _)

/-- **A pass that finds nothing changes nothing.** -/
theorem replaceAll_of_occurrences {replace : Match → Text} {text : Text}
    (absent : pattern.occurrences text = []) : pattern.replaceAll replace text = text := by
  rw [replaceAll, eq_map_plain_of_locate absent, flatten_pieces, flatMap_replaced_plain]

/-! ### Cleared stretches -/

/-- No occurrence of a pattern in a text reaches between two places. -/
def Clears (pattern : Pattern) (text : Text) (start stop : Nat) : Prop :=
  ∀ located ∈ pattern.occurrences text, located.stop ≤ start ∨ stop ≤ located.start

instance (pattern : Pattern) (text : Text) (start stop : Nat) :
    Decidable (pattern.Clears text start stop) :=
  inferInstanceAs (Decidable (∀ located ∈ pattern.occurrences text,
    located.stop ≤ start ∨ stop ≤ located.start))

/-- Some pieces can be cut at a place into which no occurrence reaches. -/
theorem exists_cut_pieces {place cut : Nat} (low : place ≤ cut)
    (high : cut ≤ place + (pieces.flatMap Piece.text).length)
    (apart : ∀ located ∈ locate place pieces, located.stop ≤ cut ∨ cut ≤ located.start) :
    ∃ one two, pieces = one ++ two ∧ place + (one.flatMap Piece.text).length = cut := by
  induction pieces generalizing place with
  | nil =>
    rw [List.flatMap_nil, List.length_nil] at high
    exact ⟨[], [], rfl, Nat.le_antisymm low high⟩
  | cons piece others step =>
    by_cases here : place = cut
    · exact ⟨[], piece :: others, rfl, here⟩
    · rw [List.flatMap_cons, List.length_append] at high
      have behind : place + piece.text.length ≤ cut := by
        cases piece with
        | plain c => exact Nat.succ_le_of_lt (Nat.lt_of_le_of_ne low here)
        | found occurrence =>
          rcases apart _ (List.mem_cons_self ..) with stop | start
          · exact stop
          · exact absurd (Nat.le_antisymm low start) here
      have later : ∀ located ∈ locate (place + piece.text.length) others,
          located.stop ≤ cut ∨ cut ≤ located.start := by
        cases piece with
        | plain c => exact apart
        | found occurrence => exact fun located member => apart located (List.mem_cons_of_mem _ member)
      obtain ⟨one, two, rfl, size⟩ := step behind (by omega) later
      refine ⟨piece :: one, two, rfl, ?_⟩
      rw [List.flatMap_cons, List.length_append, ← size]
      omega

/-- **A scan passes over a stretch that its pattern clears.** -/
theorem Clears.exists_pieces (proper : pattern.Proper) {front piece back : Text}
    (clears : pattern.Clears (front ++ (piece ++ back)) front.length (front.length + piece.length)) :
    ∃ one two, pattern.pieces (front ++ (piece ++ back)) = one ++ (piece.map .plain ++ two) ∧
      one.flatMap Piece.text = front ∧ two.flatMap Piece.text = back := by
  have covers := flatten_pieces pattern (front ++ (piece ++ back))
  have steps := proper.scans none (front ++ (piece ++ back))
  have sizes := congrArg List.length covers
  simp only [List.length_append] at sizes
  have nonempty {located : Located}
      (member : located ∈ pattern.occurrences (front ++ (piece ++ back))) :
      located.start < located.stop := by
    obtain ⟨_, lexeme, _, nonempty, _, _, _, stop⟩ := steps.exists_of_mem member
    have := List.length_pos_iff.mpr nonempty
    omega
  rw [Clears, occurrences] at clears
  rw [occurrences] at nonempty
  generalize pattern.pieces (front ++ (piece ++ back)) = pieces at *
  obtain ⟨one, later, rfl, first⟩ := exists_cut_pieces (Nat.zero_le _) (by omega)
    fun located member => (clears located member).imp_right (Nat.le_trans (Nat.le_add_right _ _))
  rw [locate_append] at clears nonempty
  simp only [List.flatMap_append, List.length_append] at covers sizes first
  rw [Nat.zero_add] at first clears nonempty
  rw [first] at clears nonempty
  obtain ⟨middle, two, rfl, second⟩ := exists_cut_pieces (Nat.le_add_right front.length piece.length)
    (by omega) fun located member =>
      (clears located (List.mem_append_right _ member)).imp_left (Nat.le_trans · (Nat.le_add_right _ _))
  rw [List.flatMap_append] at covers
  obtain ⟨front_eq, behind⟩ := List.append_inj covers first
  obtain ⟨piece_eq, back_eq⟩ := List.append_inj behind (by omega)
  have absent : locate front.length middle = [] := by
    refine List.eq_nil_iff_forall_not_mem.mpr fun located member => ?_
    have listed : located ∈ locate 0 one ++ locate front.length (middle ++ two) := by
      rw [locate_append]
      exact List.mem_append_right _ (List.mem_append_left _ member)
    have bounds := bounds_of_mem_locate member
    have apart := clears located listed
    have := nonempty listed
    omega
  refine ⟨one, two, ?_, front_eq, back_eq⟩
  rw [← piece_eq, ← eq_map_plain_of_locate absent]

/-- No occurrence of a pattern begins in a stretch, whatever stands behind it. -/
def Silent (pattern : Pattern) (stretch : Text) : Prop :=
  ∀ early late rest, stretch = early ++ late → late ≠ [] → pattern.reach? none (late ++ rest) = none

theorem silent_nil (pattern : Pattern) : Silent pattern [] := by
  intro early late _ cut nonempty
  exact absurd (List.append_eq_nil_iff.mp cut.symm).2 nonempty

/-- **Where no occurrence can begin, a cleared stretch goes on.** -/
theorem Clears.extend (proper : pattern.Proper) (forward : pattern.Forward)
    {front piece tail back : Text} (silent : Silent pattern tail)
    (clears : pattern.Clears (front ++ (piece ++ (tail ++ back))) front.length
      (front.length + piece.length)) :
    pattern.Clears (front ++ (piece ++ (tail ++ back))) front.length
      (front.length + (piece ++ tail).length) := by
  intro located member
  refine (clears located member).imp_right fun start => Nat.le_of_not_lt fun inside => ?_
  obtain ⟨first, lexeme, rest, _, cut, found, place, _⟩ := proper.exists_of_mem_occurrences member
  rw [List.length_append] at inside
  rw [← List.append_assoc] at cut
  obtain ⟨early, rfl, behind⟩ := exists_between cut (by rw [List.length_append]; omega)
  rw [List.length_append, List.length_append] at place
  obtain ⟨late, one, two⟩ := exists_between behind.symm (by omega)
  have nonempty : late ≠ [] := by
    rintro rfl
    have sizes := congrArg List.length one
    rw [List.append_nil] at sizes
    omega
  have absent := silent early late back one nonempty
  rw [forward, two, absent] at found
  exact absurd found (Option.some_ne_none _).symm

/-- **Where no occurrence ends with a character, a cleared stretch can begin with it.** -/
theorem Clears.extend_left (proper : pattern.Proper) {front piece back : Text} {c : Char}
    (apart : ∀ {before lexeme groups},
      pattern.reach? before (lexeme ++ (piece ++ back)) = some ⟨lexeme.length, groups⟩ →
      lexeme.getLast? ≠ some c)
    (clears : pattern.Clears ((front ++ [c]) ++ (piece ++ back)) (front ++ [c]).length
      ((front ++ [c]).length + piece.length)) :
    pattern.Clears ((front ++ [c]) ++ (piece ++ back)) front.length
      (front.length + (c :: piece).length) := by
  intro located member
  have sizes : (front ++ [c]).length = front.length + 1 := by rw [List.length_append]; rfl
  rcases clears located member with sooner | later
  · refine Or.inl (Nat.le_of_not_lt fun inside => ?_)
    obtain ⟨first, lexeme, rest, nonempty, cut, found, _, stop⟩ :=
      proper.exists_of_mem_occurrences member
    have whole : (front ++ [c]) ++ (piece ++ back) = (first ++ lexeme) ++ rest := by
      rw [cut, List.append_assoc]
    have covered : (first ++ lexeme).length = first.length + lexeme.length := List.length_append
    obtain ⟨ends, rfl⟩ := List.append_inj whole (by omega)
    have last := congrArg List.getLast? ends
    rw [List.getLast?_concat, List.getLast?_append] at last
    cases shape : lexeme.getLast? with
    | none => exact nonempty (List.getLast?_eq_none_iff.mp shape)
    | some d =>
      rw [shape] at last
      exact apart found (shape.trans last.symm)
  · refine Or.inr ?_
    rw [List.length_cons]
    omega

end Handbook.Pattern
