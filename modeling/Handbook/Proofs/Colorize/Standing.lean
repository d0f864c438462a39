/-
**Stretches that stand through a pass.**

A colored text holds a stretch of the text that it shows when the stretch stands in it in one piece,
with what is shown before it on the one side and what is shown behind it on the other. A pass keeps
such a stretch when none of its occurrences in the shown text reaches into the stretch: what the pass
finds in the colored text can be found in the shown text as well.

* `lifts_of_avoids`: what a pattern without sequences finds in a colored text is in the shown text;
* `Holds.keep`: a pass keeps a stretch that its pattern clears;
* `Holds.replace`, `Holds.found`: a pass replaces a stretch that is one of the listed occurrences, and
  wherever a solitary pattern occurs;
* `Holds.island`: between two sequences a pass sees nothing but what stands there;
* `place_unique`, `Holds.exclusive`: one place of the shown text stands at one place of the colored
  text, so no sequence stands in a stretch that is held.
-/

import Handbook.Proofs.Colorize.Prose
import Handbook.Proofs.Pattern.Steady

namespace Handbook.Colorize

open Terminal Pattern Text

/-- A colored text that holds a stretch in one piece, between what is shown before it and what is
shown behind it. -/
def Holds (painted front piece back : Text) : Prop :=
  ∃ before after, painted = before ++ (piece ++ after) ∧ Shows before front ∧ Shows after back

variable {pattern : Pattern} {painted shown front piece back : Text}

theorem shows_select {code : Text} (isCode : IsCode code) : Shows (select code) [] where
  intact := intact_select isCode
  visible := by
    have alone := stripColors_select isCode []
    rwa [List.append_nil] at alone

theorem Shows.stops {test : Char → Bool} (shows : Shows painted shown) (stops : Stops test shown)
    (dark : test escape = false) : Stops test painted := by
  cases painted with
  | nil => exact stops_nil test
  | cons c rest =>
    by_cases isEscape : c = escape
    · exact stops_cons (isEscape ▸ dark) rest
    · have visible := shows.visible
      rw [stripColors_cons isEscape] at visible
      exact stops_cons (stops c (visible ▸ rfl)) rest

/-- What is left behind a text that shows the beginning shows the rest. -/
theorem Shows.of_append {first first' second second' : Text} (one : Shows first first')
    (both : Shows (first ++ second) (first' ++ second')) : Shows second second' where
  intact := both.intact.of_append_right
  visible := by
    have visible := both.visible
    rw [stripColors_append one.intact, one.visible] at visible
    exact List.append_cancel_left visible

theorem Holds.shows (holds : Holds painted front piece back) (clear : escape ∉ piece) :
    Shows painted (front ++ (piece ++ back)) := by
  obtain ⟨before, after, rfl, first, second⟩ := holds
  exact first.append ((shows_plain piece clear).append second)

/-- **The beginning of a stretch that is held is held.** -/
theorem Holds.first {late shownLate : Text} (holds : Holds painted front (piece ++ late) back)
    (shows : Shows late shownLate) : Holds painted front piece (shownLate ++ back) := by
  obtain ⟨before, after, rfl, first, second⟩ := holds
  exact ⟨before, late ++ after, by rw [List.append_assoc], first, shows.append second⟩

/-- **The end of a stretch that is held is held.** -/
theorem Holds.last {early shownEarly : Text} (holds : Holds painted front (early ++ piece) back)
    (shows : Shows early shownEarly) : Holds painted (front ++ shownEarly) piece back := by
  obtain ⟨before, after, rfl, first, second⟩ := holds
  exact ⟨before ++ early, after, by simp, first.append shows, second⟩

/-! ### Finding again what is colored -/

/-- Wherever a pattern occurs in a colored text, an occurrence in the shown text covers what is shown
there. -/
def Lifts (pattern : Pattern) (painted shown : Text) : Prop :=
  ∀ {first lexeme rest groups}, painted = first ++ (lexeme ++ rest) →
    pattern.reach? none (lexeme ++ rest) = some ⟨lexeme.length, groups⟩ →
    ∃ located ∈ pattern.occurrences shown, located.start ≤ (stripColors first).length ∧
      (stripColors (first ++ lexeme)).length ≤ located.stop

/-- Before an occurrence an intact text is intact. -/
theorem intact_of_aligned (aligned : Aligned pattern) {before : Option Char} {first rest : Text}
    {reach : Reach} (intact : Intact (first ++ rest))
    (found : pattern.reach? before rest = some reach) :
    Intact first ∧ Intact rest ∧ ∃ c others, rest = c :: others ∧ c ≠ escape := by
  obtain ⟨c, others, later, plain, outer, _, rfl, _⟩ := aligned.occurrence found
  exact ⟨intact.of_stops (stops_cons outer _), intact.of_append_right, c, _, rfl, plain⟩

/-- **What a pattern without sequences finds in a colored text is there in the shown text.** -/
theorem lifts_of_avoids (steady : pattern.Steady) (aligned : Aligned pattern)
    (avoids : Avoids pattern escape) (shows : Shows painted shown) :
    Lifts pattern painted shown := by
  intro first lexeme rest groups cut found
  obtain ⟨intact, rfl⟩ := shows
  rw [cut] at intact ⊢
  obtain ⟨one, two, _⟩ := intact_of_aligned aligned intact found
  have plain : escape ∉ lexeme := avoids found
  have visible : stripColors (first ++ (lexeme ++ rest)) =
      stripColors first ++ (lexeme ++ stripColors rest) := by
    rw [stripColors_append one, stripColors_append (intact_of_not_mem plain),
      stripColors_of_not_mem plain]
  obtain ⟨reach, grown, longer⟩ := steady.grows found (stripColors rest)
  obtain ⟨lexeme', rest', _, cut', size⟩ := steady.cut grown
  rw [cut', size] at grown
  obtain ⟨located, member, start, stop⟩ := steady.exists_located grown
  rw [size] at longer
  simp only at longer
  rw [visible, cut']
  refine ⟨located, member, start, ?_⟩
  rw [stripColors_append one, stripColors_of_not_mem plain, List.length_append]
  omega

/-- Where an occurrence reaches over the beginning of a stretch, one in the shown text does. -/
theorem Lifts.crosses (aligned : Aligned pattern) {before after : Text}
    (lifts : Lifts pattern (before ++ after) shown) (shows : Shows before front)
    (plain : ∀ c ∈ after.head?, c ≠ escape) {early late : Text} {reach : Reach}
    (cut : before = early ++ late) (nonempty : late ≠ [])
    (found : pattern.reach? none (late ++ after) = some reach)
    (longer : late.length < reach.size) :
    ∃ located ∈ pattern.occurrences shown, located.start < front.length ∧
      front.length < located.stop := by
  obtain ⟨lexeme, rest, _, split, size⟩ := aligned.proper.cut found
  rw [size] at longer
  obtain ⟨more, rfl, rfl⟩ := exists_between split (Nat.le_of_lt longer)
  rw [split, size] at found
  have whole : before ++ (more ++ rest) = early ++ ((late ++ more) ++ rest) := by
    rw [cut, List.append_assoc, List.append_assoc]
  obtain ⟨located, member, start, stop⟩ := lifts whole found
  obtain ⟨intact, rfl⟩ := shows
  have begins : Intact early ∧ ∃ c others, late = c :: others ∧ c ≠ escape := by
    obtain ⟨c, others, later, other, outer, _, text, _⟩ := aligned.occurrence found
    cases late with
    | nil => exact absurd rfl nonempty
    | cons d tail =>
      obtain ⟨rfl, _⟩ := List.cons.inj text
      rw [cut] at intact
      exact ⟨intact.of_stops (stops_cons outer tail), _, tail, rfl, other⟩
  obtain ⟨one, c, tail, rfl, other⟩ := begins
  cases more with
  | nil =>
    rw [List.append_nil] at longer
    exact absurd longer (Nat.lt_irrefl _)
  | cons d others =>
    refine ⟨located, member, ?_, ?_⟩
    · rw [cut, stripColors_append one, stripColors_cons other, List.length_append, List.length_cons]
      omega
    · rw [← List.append_assoc, ← cut, stripColors_append intact, stripColors_cons (plain d rfl),
        List.length_append, List.length_cons] at stop
      omega

/-- Where a stretch is cleared, no occurrence begins in it. -/
theorem Lifts.absent (proper : pattern.Proper) {before after : Text}
    (lifts : Lifts pattern (before ++ (piece ++ after)) shown) (shows : Shows before front)
    (clear : escape ∉ piece)
    (clears : pattern.Clears shown front.length (front.length + piece.length))
    {early late : Text} (cut : piece = early ++ late) (nonempty : late ≠ []) :
    pattern.reach? none (late ++ after) = none := by
  cases found : pattern.reach? none (late ++ after) with
  | none => rfl
  | some reach =>
    obtain ⟨lexeme, rest, some_lexeme, split, size⟩ := proper.cut found
    rw [split, size] at found
    have whole : before ++ (piece ++ after) = (before ++ early) ++ (lexeme ++ rest) := by
      rw [cut, List.append_assoc, split, List.append_assoc]
    obtain ⟨located, member, start, stop⟩ := lifts whole found
    rw [cut, List.mem_append, not_or] at clear
    have visible := (shows.append (shows_plain early clear.1)).visible
    -- the occurrence begins with a character of the stretch, which is shown
    obtain ⟨c, others, rfl⟩ := List.exists_cons_of_ne_nil some_lexeme
    obtain ⟨d, tail, rfl⟩ := List.exists_cons_of_ne_nil nonempty
    obtain ⟨rfl, _⟩ := List.cons.inj split
    have plain : d ≠ escape := fun same => clear.2 (same ▸ List.mem_cons_self ..)
    have intact := shows.intact.append (intact_of_not_mem clear.1)
    rw [stripColors_append intact, stripColors_cons plain, visible] at stop
    rw [visible] at start
    simp only [cut, List.length_append, List.length_cons] at start stop clears
    rcases clears located member with sooner | later <;> omega

/-! ### Keeping and replacing -/

theorem head_ne_escape {after : Text} (nonempty : piece ≠ []) (clear : escape ∉ piece) :
    ∀ c ∈ (piece ++ after).head?, c ≠ escape := by
  obtain ⟨d, others, rfl⟩ := List.exists_cons_of_ne_nil nonempty
  rintro c same rfl
  exact clear (List.mem_cons.mpr (Or.inl (Option.some.inj same).symm))

/-- **A pass keeps a stretch that its pattern clears.** -/
theorem Holds.keep {pass : Pass} (recolors : Recolors pass) (steady : pass.pattern.Steady)
    (nonempty : piece ≠ []) (clear : escape ∉ piece)
    (lifts : Lifts pass.pattern painted (front ++ (piece ++ back)))
    (clears : pass.pattern.Clears (front ++ (piece ++ back)) front.length
      (front.length + piece.length))
    (holds : Holds painted front piece back) : Holds (pass.apply painted) front piece back := by
  obtain ⟨before, after, rfl, first, second⟩ := holds
  refine ⟨pass.apply before, pass.apply after, ?_, recolors.apply first, recolors.apply second⟩
  have passed : pass.apply (piece ++ after) = piece ++ pass.apply after :=
    replaceAll_passed steady.forward fun early late cut behind =>
      lifts.absent steady.toProper first clear clears cut behind
  have parts : pass.apply (before ++ (piece ++ after)) =
      pass.apply before ++ pass.apply (piece ++ after) := by
    refine steady.replaceAll_append fun early late reach cut behind found => ?_
    refine Nat.le_of_not_lt fun longer => ?_
    obtain ⟨located, member, start, stop⟩ :=
      lifts.crosses recolors.aligned first (head_ne_escape nonempty clear) cut behind found longer
    have positive := List.length_pos_iff.mpr nonempty
    rcases clears located member with sooner | later <;> omega
  rw [parts, passed]

/-- **A pass replaces a stretch that is one of the listed occurrences.** -/
theorem Holds.replace {pass : Pass} (recolors : Recolors pass) (steady : pass.pattern.Steady)
    (nonempty : piece ≠ []) (clear : escape ∉ piece)
    (lifts : Lifts pass.pattern painted (front ++ (piece ++ back)))
    {located : Located} (listed : located ∈ pass.pattern.occurrences (front ++ (piece ++ back)))
    (start : located.start = front.length) {groups : List Text}
    (here : ∀ after, Shows after back →
      pass.pattern.reach? none (piece ++ after) = some ⟨piece.length, groups⟩)
    (holds : Holds painted front piece back) :
    Holds (pass.apply painted) front (pass.replace ⟨piece, groups⟩) back := by
  obtain ⟨before, after, rfl, first, second⟩ := holds
  refine ⟨pass.apply before, pass.apply after, ?_, recolors.apply first, recolors.apply second⟩
  have parts : pass.apply (before ++ (piece ++ after)) =
      pass.apply before ++ pass.apply (piece ++ after) := by
    refine steady.replaceAll_append fun early late reach cut behind found => ?_
    refine Nat.le_of_not_lt fun longer => ?_
    obtain ⟨other, member, sooner, later⟩ :=
      lifts.crosses recolors.aligned first (head_ne_escape nonempty clear) cut behind found longer
    have apart := stop_le_of_mem_occurrences member listed (by omega)
    omega
  have whole : pass.apply (piece ++ after) = pass.replace ⟨piece, groups⟩ ++ pass.apply after := by
    rw [Pass.apply, replaceAll_eq, replaceFrom_found nonempty (here after second),
      steady.forward.replaceFrom_eq]
    rfl
  rw [parts, whole]

/-- **A pass replaces what a solitary pattern occurs at**, and behind it keeps what no occurrence
begins in. -/
theorem Holds.found {pass : Pass} (recolors : Recolors pass) (solitary : pass.pattern.Solitary)
    {groups : List Text} {tail : Text}
    (found : pass.pattern.reach? none piece = some ⟨piece.length, groups⟩)
    (silent : pass.pattern.Silent tail) (holds : Holds painted front (piece ++ tail) back) :
    Holds (pass.apply painted) front (pass.replace ⟨piece, groups⟩ ++ tail) back := by
  obtain ⟨before, after, rfl, first, second⟩ := holds
  refine ⟨pass.apply before, pass.apply after, ?_, recolors.apply first, recolors.apply second⟩
  have alone : pass.pattern.reach? none (piece ++ []) = some ⟨piece.length, groups⟩ := by
    rwa [List.append_nil]
  have here := solitary.reach?_of alone none (tail ++ after)
  have behind : pass.apply (tail ++ after) = tail ++ pass.apply after :=
    replaceAll_passed solitary.forward fun early late cut nonempty =>
      silent early late after cut nonempty
  rw [Pass.apply] at behind ⊢
  rw [List.append_assoc, solitary.replaceAll_found here, behind, List.append_assoc]
  rfl

/-! ### Between sequences -/

/-- A sequence is passed over by patterns that begin with no character of one. -/
theorem replaceAll_select {replace : Match → Text} (aligned : Aligned pattern)
    (forward : pattern.Forward) {code : Text} (isCode : IsCode code) (rest : Text) :
    pattern.replaceAll replace (select code ++ rest) =
      select code ++ pattern.replaceAll replace rest := by
  rw [replaceAll_eq, replaceFrom_spared fun c member => aligned.spares (mem_select isCode member),
    forward.replaceFrom_eq]

/-- **On both sides of a sequence a text is replaced by itself.** -/
theorem replaceAll_append_select {replace : Match → Text} (aligned : Aligned pattern)
    (forward : pattern.Forward) (halts : pattern.HaltsAt escape) {code : Text}
    (isCode : IsCode code) (first rest : Text) :
    pattern.replaceAll replace (first ++ (select code ++ rest)) =
      pattern.replaceAll replace first ++ (select code ++ pattern.replaceAll replace rest) := by
  have whole : select code ++ rest = escape :: ('[' :: code ++ 'm' :: rest) := by simp [select]
  have behind : pattern.replaceAll replace (select code ++ rest) =
      escape :: pattern.replaceFrom replace (some escape) ('[' :: code ++ 'm' :: rest) := by
    rw [whole, replaceAll_eq, replaceFrom_plain (halts.spares _ _)]
  rw [← replaceAll_select aligned forward isCode, behind, whole, replaceAll_eq,
    halts.replaceFrom_append]
  rfl

/-- **Between two sequences a pass sees nothing but what stands there**, and behind them it keeps
what no occurrence begins in. -/
theorem Holds.island {pass : Pass} (recolors : Recolors pass) (forward : pass.pattern.Forward)
    (halts : pass.pattern.HaltsAt escape) {opening closing inner tail : Text}
    (isCode : IsCode opening) (isCode' : IsCode closing) (same : pass.apply inner = inner)
    (silent : pass.pattern.Silent tail)
    (holds : Holds painted front (select opening ++ (inner ++ (select closing ++ tail))) back) :
    Holds (pass.apply painted) front (select opening ++ (inner ++ (select closing ++ tail)))
      back := by
  obtain ⟨before, after, rfl, first, second⟩ := holds
  refine ⟨pass.apply before, pass.apply after, ?_, recolors.apply first, recolors.apply second⟩
  have behind : pass.apply (tail ++ after) = tail ++ pass.apply after :=
    replaceAll_passed forward fun early late cut nonempty => silent early late after cut nonempty
  rw [Pass.apply] at same behind ⊢
  simp only [List.append_assoc]
  rw [replaceAll_append_select recolors.aligned forward halts isCode,
    replaceAll_append_select recolors.aligned forward halts isCode', same, behind]
  rfl

/-! ### Places -/

/-- **One place of the shown text stands at one place of the colored text.** -/
theorem place_unique {first first' rest rest' : Text} {c c' : Char} (intact : Intact first)
    (intact' : Intact first') (plain : c ≠ escape) (plain' : c' ≠ escape)
    (same : first ++ c :: rest = first' ++ c' :: rest')
    (size : (stripColors first).length = (stripColors first').length) : first = first' := by
  induction intact using Intact.induction generalizing first' with
  | nil =>
    cases first' with
    | nil => rfl
    | cons d others =>
      have head : c = d := (List.cons.inj same).1
      have other : d ≠ escape := head ▸ plain
      rw [stripColors_cons other] at size
      exact absurd size.symm (Nat.succ_ne_zero _)
  | plain d others other _ step =>
    cases first' with
    | nil =>
      rw [stripColors_cons other] at size
      exact absurd size (Nat.succ_ne_zero _)
    | cons e more =>
      obtain ⟨rfl, later⟩ := List.cons.inj same
      rw [stripColors_cons other, stripColors_cons other] at size
      rw [step intact'.of_cons later (Nat.succ.inj size)]
  | sequence code others isCode _ step =>
    have opening : escape :: ('[' :: code ++ ['m'] ++ others ++ c :: rest) =
        first' ++ c' :: rest' := by
      rw [← same]
      simp [select]
    cases first' with
    | nil => exact absurd (List.cons.inj opening).1.symm plain'
    | cons e more =>
      obtain ⟨rfl, _⟩ := List.cons.inj opening
      obtain ⟨code', others', isCode', whole⟩ := intact'.whole
      rw [whole] at intact' same size ⊢
      rw [List.append_assoc, List.append_assoc] at same
      obtain ⟨rfl, later⟩ := select_append_inj isCode isCode' same
      rw [stripColors_append (intact_select isCode), stripColors_append (intact_select isCode),
        List.length_append, List.length_append] at size
      rw [step intact'.of_append_right later (Nat.add_left_cancel size)]

/-- **Where a stretch is held, no sequence stands in it.** -/
theorem Holds.exclusive {early late late' code back' : Text} {c c' d : Char} (isCode : IsCode code)
    (holds : Holds painted front ((d :: early) ++ c :: late) back)
    (holds' : Holds painted (front ++ d :: early) (select code ++ c' :: late') back')
    (clear : escape ∉ d :: early) (outer : isInner d = false) (plain : c ≠ escape)
    (plain' : c' ≠ escape) : False := by
  obtain ⟨before, after, rfl, first, _⟩ := holds
  obtain ⟨before', after', same, first', _⟩ := holds'
  have one := first.append (shows_plain _ clear)
  have two := first'.append (shows_select isCode)
  have whole : (before ++ d :: early) ++ c :: (late ++ after) =
      (before' ++ select code) ++ c' :: (late' ++ after') := by
    simpa using same
  have place := place_unique one.intact two.intact plain plain' whole
    (by rw [one.visible, two.visible, List.append_nil])
  -- the stretch would end with the sequence, or the sequence would hold its first character
  rcases List.append_eq_append_iff.mp place with ⟨between, _, ends⟩ | ⟨between, _, ends⟩
  · exact clear (ends ▸ List.mem_append_right _ (List.mem_cons_self ..))
  · have inside : d ∈ select code := ends ▸ List.mem_append_right _ (List.mem_cons_self ..)
    rcases mem_select isCode inside with rfl | inner
    · exact clear (List.mem_cons_self ..)
    · rw [outer] at inner
      exact absurd inner (by decide)

end Handbook.Colorize
