/-
**How line feeds become breaks.**

A help text is cut into its longest stretches: line feeds, and everything between them. A stretch of
line feeds becomes half as many breaks, rounded up, and every other stretch stays. So a text can be
treated in two parts unless the cut goes through a stretch of line feeds, and even then if one of the
two pieces of the stretch is even.

* `twiceReplaced_eq`: pairs of line feeds first, and then single ones, is the same as both at once;
* `escapeLineBreaks_append`: parts of a text that do not meet in line feeds are treated apart;
* `escapeLineBreaks_eq_stretches`: a text is treated stretch by stretch;
* `lineFeed_not_mem_escapeLineBreaks`: what is written on one line;
* `escapeLineBreaks_append_iff`: when exactly two parts can be treated apart;
* `feeds_become_breaks`: all of it for any two texts.
-/

import Mathlib.Data.List.SplitBy
import Handbook.Markdown.Escape
import Handbook.Proofs.Pattern.Scan
import Handbook.Proofs.Text.Cut

namespace Handbook.Markdown

open Pattern Text

/-! ### One after the other -/

theorem escapeLineBreaks_pair (rest : Text) :
    escapeLineBreaks ('\n' :: '\n' :: rest) = lineBreak ++ escapeLineBreaks rest := by
  simp [escapeLineBreaks]

theorem escapeLineBreaks_single {rest : Text} (last : rest.head? ≠ some '\n') :
    escapeLineBreaks ('\n' :: rest) = lineBreak ++ escapeLineBreaks rest := by
  cases rest with
  | nil => rfl
  | cons c others =>
    have other : c ≠ '\n' := fun same => last (congrArg some same)
    simp [escapeLineBreaks, other]

theorem escapeLineBreaks_other {c : Char} (other : c ≠ '\n') (rest : Text) :
    escapeLineBreaks (c :: rest) = c :: escapeLineBreaks rest := by
  simp [escapeLineBreaks, other]

/-- **A text is read in three kinds of steps**: a pair of line feeds, a line feed that is the last one
before other characters, and any other character. -/
@[elab_as_elim]
theorem induction_feeds {motive : Text → Prop} (nil : motive [])
    (pair : ∀ rest, motive rest → motive ('\n' :: '\n' :: rest))
    (single : ∀ rest, rest.head? ≠ some '\n' → motive rest → motive ('\n' :: rest))
    (other : ∀ c rest, c ≠ '\n' → motive rest → motive (c :: rest)) (text : Text) :
    motive text := by
  fun_induction escapeLineBreaks text with
  | case1 => exact nil
  | case2 rest step => exact pair rest step
  | case3 rest last step =>
    refine single rest (fun starts => ?_) step
    obtain ⟨others, rfl⟩ := List.head?_eq_some_iff.mp starts
    exact last others rfl
  | case4 c rest _ last step => exact other c rest last step

/-- A text with every occurrence of another one replaced. -/
def replaced (needle replacement text : Text) : Text :=
  (literal needle).replaceAll (fun _ => replacement) text

theorem replaced_needle {needle : Text} (nonempty : needle ≠ []) (replacement rest : Text) :
    replaced needle replacement (needle ++ rest) =
      replacement ++ replaced needle replacement rest := by
  rw [replaced, replaceAll_eq, replaceFrom_found nonempty (reach?_literal_append none needle rest),
    (forward_literal needle).replaceFrom_eq]
  rfl

theorem replaced_other {needle : Text} {c : Char} {rest : Text} (replacement : Text)
    (absent : ¬ needle <+: c :: rest) :
    replaced needle replacement (c :: rest) = c :: replaced needle replacement rest := by
  rw [replaced, replaceAll_eq, replaceFrom_plain (reach?_literal_eq_none_iff.mpr absent),
    (forward_literal needle).replaceFrom_eq]
  rfl

/-- The pairs of line feeds first, and then the line feeds that are left. -/
def twiceReplaced (text : Text) : Text :=
  replaced ['\n'] lineBreak (replaced ['\n', '\n'] lineBreak text)

/-- **Pairs of line feeds first, and then single ones, is the same as both at once.** -/
theorem twiceReplaced_eq (text : Text) : twiceReplaced text = escapeLineBreaks text := by
  have plain {c : Char} (other : c ≠ '\n') (rest : Text) :
      replaced ['\n'] lineBreak (c :: rest) = c :: replaced ['\n'] lineBreak rest := by
    refine replaced_other lineBreak fun early => ?_
    exact other (List.cons_prefix_cons.mp early).1.symm
  have breakKept (rest : Text) :
      replaced ['\n'] lineBreak (lineBreak ++ rest) = lineBreak ++ replaced ['\n'] lineBreak rest := by
    change replaced ['\n'] lineBreak ('<' :: 'b' :: 'r' :: '>' :: rest) = _
    rw [plain (by decide), plain (by decide), plain (by decide), plain (by decide)]
    rfl
  induction text using induction_feeds with
  | nil => rfl
  | pair rest step =>
    have first := replaced_needle (List.cons_ne_nil '\n' ['\n']) lineBreak rest
    rw [escapeLineBreaks_pair, ← step, twiceReplaced, twiceReplaced, ← breakKept, ← first]
    rfl
  | single rest last step =>
    have first : replaced ['\n', '\n'] lineBreak ('\n' :: rest) =
        '\n' :: replaced ['\n', '\n'] lineBreak rest := by
      refine replaced_other lineBreak fun early => last ?_
      obtain ⟨others, same⟩ := (List.cons_prefix_cons.mp early).2
      rw [← same]
      rfl
    rw [escapeLineBreaks_single last, ← step, twiceReplaced, twiceReplaced, first]
    exact replaced_needle (List.cons_ne_nil '\n' []) lineBreak _
  | other c rest other step =>
    have first : replaced ['\n', '\n'] lineBreak (c :: rest) =
        c :: replaced ['\n', '\n'] lineBreak rest := by
      refine replaced_other lineBreak fun early => ?_
      exact other (List.cons_prefix_cons.mp early).1.symm
    rw [escapeLineBreaks_other other, ← step, twiceReplaced, twiceReplaced, first, plain other]

/-! ### Parts that do not meet in line feeds -/

/-- **Parts of a text that do not meet in line feeds are treated apart.** -/
theorem escapeLineBreaks_append {first second : Text}
    (apart : ¬ (first.getLast? = some '\n' ∧ second.head? = some '\n')) :
    escapeLineBreaks (first ++ second) = escapeLineBreaks first ++ escapeLineBreaks second := by
  have behind {front rest : Text}
      (apart : ¬ ((front ++ rest).getLast? = some '\n' ∧ second.head? = some '\n')) :
      ¬ (rest.getLast? = some '\n' ∧ second.head? = some '\n') := by
    rintro ⟨ends, starts⟩
    exact apart ⟨by rw [List.getLast?_append, ends]; rfl, starts⟩
  induction first using induction_feeds with
  | nil => rfl
  | pair rest step =>
    have later := step (@behind ['\n', '\n'] rest apart)
    rw [List.cons_append, List.cons_append, escapeLineBreaks_pair, escapeLineBreaks_pair, later,
      List.append_assoc]
  | single rest last step =>
    have later := step (@behind ['\n'] rest apart)
    have last' : (rest ++ second).head? ≠ some '\n' := by
      cases rest with
      | nil => exact fun starts => apart ⟨rfl, starts⟩
      | cons c others => exact last
    rw [List.cons_append, escapeLineBreaks_single last, escapeLineBreaks_single last', later,
      List.append_assoc]
  | other c rest other step =>
    have later := step (@behind [c] rest apart)
    rw [List.cons_append, escapeLineBreaks_other other, escapeLineBreaks_other other, later,
      List.cons_append]

/-! ### Stretches -/

/-- Some line feeds. -/
def feeds (count : Nat) : Text := List.replicate count '\n'

/-- Some breaks. -/
def breaks (count : Nat) : Text := (List.replicate count lineBreak).flatten

/-- Whether two characters belong to one stretch: both are line feeds, or neither is. -/
def sameStretch (c d : Char) : Bool := (c == '\n') == (d == '\n')

/-- The longest stretches of a text, of line feeds and of other characters. -/
def stretches (text : Text) : List Text := text.splitBy sameStretch

/-- What a stretch becomes: half as many breaks, rounded up, if it is made of line feeds, and itself
otherwise. -/
def writtenStretch (stretch : Text) : Text :=
  if '\n' ∈ stretch then breaks ((stretch.length + 1) / 2) else stretch

/-- **Line feeds in a row become half as many breaks**, rounded up. -/
theorem escapeLineBreaks_feeds : ∀ count, escapeLineBreaks (feeds count) = breaks ((count + 1) / 2)
  | 0 => rfl
  | 1 => rfl
  | count + 2 => by
    have half : (count + 2 + 1) / 2 = (count + 1) / 2 + 1 := by omega
    rw [half, breaks, List.replicate_succ, List.flatten_cons, ← breaks, ← escapeLineBreaks_feeds]
    exact escapeLineBreaks_pair (feeds count)

theorem escapeLineBreaks_of_not_mem {text : Text} (absent : '\n' ∉ text) :
    escapeLineBreaks text = text := by
  induction text with
  | nil => rfl
  | cons c rest step =>
    rw [List.mem_cons, not_or] at absent
    rw [escapeLineBreaks_other (Ne.symm absent.1), step absent.2]

/-- The characters of a stretch are all line feeds, or none is. -/
theorem eq_lineFeed_iff_of_isChain {c : Char} {rest : Text}
    (chain : (c :: rest).IsChain fun one other => sameStretch one other = true) :
    ∀ d ∈ rest, (d = '\n' ↔ c = '\n') := by
  induction rest generalizing c with
  | nil => exact fun d member => absurd member List.not_mem_nil
  | cons next others step =>
    rw [List.isChain_cons_cons, sameStretch, beq_iff_eq, Bool.eq_iff_iff, beq_iff_eq, beq_iff_eq]
      at chain
    intro d member
    rcases List.mem_cons.mp member with rfl | later
    · exact chain.1.symm
    · exact (step chain.2 d later).trans chain.1.symm

/-- **What becomes of a stretch.** -/
theorem escapeLineBreaks_stretch {text stretch : Text} (member : stretch ∈ stretches text) :
    escapeLineBreaks stretch = writtenStretch stretch := by
  have chain := List.isChain_of_mem_splitBy member
  cases stretch with
  | nil => rfl
  | cons c rest =>
    have alike := eq_lineFeed_iff_of_isChain chain
    rw [writtenStretch]
    by_cases feed : c = '\n'
    · have all : c :: rest = feeds (c :: rest).length := by
        refine List.eq_replicate_iff.mpr ⟨rfl, List.forall_mem_cons.mpr ⟨feed, ?_⟩⟩
        exact fun d inside => (alike d inside).mpr feed
      rw [if_pos (feed ▸ List.mem_cons_self ..), ← escapeLineBreaks_feeds, ← all]
    · have absent : '\n' ∉ c :: rest := by
        rw [List.mem_cons, not_or]
        exact ⟨Ne.symm feed, fun inside => feed ((alike '\n' inside).mp rfl)⟩
      rw [if_neg absent, escapeLineBreaks_of_not_mem absent]

/-- Parts of which no two neighbours meet in line feeds are treated one by one. -/
theorem escapeLineBreaks_flatten {parts : List Text}
    (apart : parts.IsChain fun one other =>
      ∃ ends starts, sameStretch (one.getLast ends) (other.head starts) = false) :
    escapeLineBreaks parts.flatten = parts.flatMap escapeLineBreaks := by
  induction parts with
  | nil => rfl
  | cons part others step =>
    rw [List.flatten_cons, List.flatMap_cons]
    cases others with
    | nil => rw [List.flatten_nil, List.append_nil, List.flatMap_nil, List.append_nil]
    | cons next more =>
      rw [List.isChain_cons_cons] at apart
      obtain ⟨⟨ends, starts, differ⟩, later⟩ := apart
      rw [← step later]
      refine escapeLineBreaks_append ?_
      rintro ⟨last, first⟩
      -- the two characters would belong to one stretch
      rw [List.flatten_cons, List.head?_append_of_ne_nil _ starts,
        List.head?_eq_some_head starts] at first
      rw [List.getLast?_eq_some_getLast ends] at last
      rw [Option.some.inj last, Option.some.inj first] at differ
      exact absurd differ (by decide)

/-- **A text is treated stretch by stretch.** -/
theorem escapeLineBreaks_eq_stretches (text : Text) :
    escapeLineBreaks text = (stretches text).flatMap writtenStretch := by
  have whole : (stretches text).flatten = text := List.flatten_splitBy sameStretch text
  have apart := escapeLineBreaks_flatten (List.isChain_getLast_head_splitBy sameStretch text)
  rw [← stretches, whole] at apart
  rw [apart]
  exact List.flatMap_congr fun stretch member => escapeLineBreaks_stretch member

/-- **A text on one line has no line feed.** -/
theorem lineFeed_not_mem_escapeLineBreaks (text : Text) : '\n' ∉ escapeLineBreaks text := by
  rw [escapeLineBreaks_eq_stretches, List.mem_flatMap]
  rintro ⟨stretch, _, member⟩
  rw [writtenStretch] at member
  split at member
  · obtain ⟨mark, listed, inside⟩ := List.mem_flatten.mp member
    rw [List.eq_of_mem_replicate listed] at inside
    exact absurd inside (by decide)
  · contradiction

/-! ### Parts that meet in line feeds -/

/-- How many line feeds begin a text. -/
def feedsAhead (text : Text) : Nat := (text.takeWhile (· == '\n')).length

/-- How many line feeds end a text. -/
def feedsBehind (text : Text) : Nat := feedsAhead text.reverse

theorem exists_feedsAhead (text : Text) :
    ∃ rest, rest.head? ≠ some '\n' ∧ text = feeds (feedsAhead text) ++ rest := by
  have all : text.takeWhile (· == '\n') = feeds (feedsAhead text) :=
    List.eq_replicate_iff.mpr ⟨rfl, fun c member => by simpa using of_mem_takeWhile member⟩
  refine ⟨text.dropWhile (· == '\n'), fun starts => ?_, ?_⟩
  · exact absurd (stops_dropWhile (· == '\n') text '\n' starts) (by decide)
  · rw [← all, List.takeWhile_append_dropWhile]

theorem exists_feedsBehind (text : Text) :
    ∃ front, front.getLast? ≠ some '\n' ∧ text = front ++ feeds (feedsBehind text) := by
  obtain ⟨rest, first, whole⟩ := exists_feedsAhead text.reverse
  refine ⟨rest.reverse, by rwa [List.getLast?_reverse], ?_⟩
  have mirrored := congrArg List.reverse whole
  rwa [List.reverse_reverse, List.reverse_append, feeds, List.reverse_replicate, ← feeds,
    ← feedsBehind] at mirrored

theorem feeds_add (one other : Nat) : feeds (one + other) = feeds one ++ feeds other :=
  List.replicate_add ..

theorem length_breaks (count : Nat) : (breaks count).length = 4 * count := by
  simp [breaks, lineBreak, Nat.mul_comm]

theorem breaks_add (one other : Nat) : breaks (one + other) = breaks one ++ breaks other := by
  rw [breaks, List.replicate_add, List.flatten_append, ← breaks, ← breaks]

theorem breaks_inj {one other : Nat} : breaks one = breaks other ↔ one = other := by
  refine ⟨fun same => ?_, fun same => same ▸ rfl⟩
  have sizes := congrArg List.length same
  rw [length_breaks, length_breaks] at sizes
  omega

/-- **Two parts can be treated apart** unless an odd number of line feeds ends the first and an odd
number begins the second: the last one of the first would have made a pair with the next. -/
theorem escapeLineBreaks_append_iff (first second : Text) :
    escapeLineBreaks (first ++ second) = escapeLineBreaks first ++ escapeLineBreaks second ↔
      ¬ (feedsBehind first % 2 = 1 ∧ feedsAhead second % 2 = 1) := by
  obtain ⟨front, ends, cut⟩ := exists_feedsBehind first
  obtain ⟨rest, starts, cut'⟩ := exists_feedsAhead second
  generalize feedsBehind first = behind at cut
  generalize feedsAhead second = ahead at cut'
  subst cut cut'
  have early : escapeLineBreaks (front ++ feeds behind) =
      escapeLineBreaks front ++ breaks ((behind + 1) / 2) := by
    rw [escapeLineBreaks_append fun both => ends both.1, escapeLineBreaks_feeds]
  have late (count : Nat) : escapeLineBreaks (feeds count ++ rest) =
      breaks ((count + 1) / 2) ++ escapeLineBreaks rest := by
    rw [escapeLineBreaks_append fun both => starts both.2, escapeLineBreaks_feeds]
  have whole : escapeLineBreaks ((front ++ feeds behind) ++ (feeds ahead ++ rest)) =
      escapeLineBreaks front ++ (breaks ((behind + ahead + 1) / 2) ++ escapeLineBreaks rest) := by
    rw [List.append_assoc, ← List.append_assoc (feeds behind), ← feeds_add,
      escapeLineBreaks_append fun both => ends both.1, late]
  rw [whole, early, late, List.append_assoc, List.append_right_inj, ← List.append_assoc,
    List.append_left_inj, ← breaks_add, breaks_inj]
  omega

/-! ### All texts -/

/-- **How line feeds become breaks.** Replacing the pairs of line feeds and then those that are left
makes half as many breaks, rounded up, of each longest stretch of line feeds, and keeps everything
between them in order. No line feed is left. Two texts can be treated apart if they do not meet in
line feeds, and if they do, unless both numbers of them are odd. -/
theorem feeds_become_breaks (first second : Text) :
    escapeLineBreaks first = (stretches first).flatMap writtenStretch ∧
      escapeLineBreaks first = twiceReplaced first ∧ '\n' ∉ escapeLineBreaks first ∧
      (¬ (first.getLast? = some '\n' ∧ second.head? = some '\n') →
        escapeLineBreaks (first ++ second) = escapeLineBreaks first ++ escapeLineBreaks second) ∧
      (escapeLineBreaks (first ++ second) = escapeLineBreaks first ++ escapeLineBreaks second ↔
        ¬ (feedsBehind first % 2 = 1 ∧ feedsAhead second % 2 = 1)) :=
  ⟨escapeLineBreaks_eq_stretches first, (twiceReplaced_eq first).symm,
    lineFeed_not_mem_escapeLineBreaks first, escapeLineBreaks_append,
    escapeLineBreaks_append_iff first second⟩

/-- An odd stretch at the start of a text and an even one at its end, before a text that begins with a
line feed; and a text before it that ends with none. -/
def brokenHelp : Text := "\n\n\nOne.\n\n".toList

theorem feeds_become_breaks_brokenHelp :
    (¬ ("Two.".toList.getLast? = some '\n' ∧ brokenHelp.head? = some '\n')) ∧
      stretches brokenHelp = [feeds 3, "One.".toList, feeds 2] ∧
      escapeLineBreaks brokenHelp = "<br><br>One.<br>".toList ∧
      escapeLineBreaks ("Two.".toList ++ brokenHelp) = "Two.<br><br>One.<br>".toList := by
  have apart : ¬ ("Two.".toList.getLast? = some '\n' ∧ brokenHelp.head? = some '\n') := by decide
  have cut : stretches brokenHelp = [feeds 3, "One.".toList, feeds 2] := by decide
  have here := (feeds_become_breaks brokenHelp []).1
  obtain ⟨-, -, -, behind, -⟩ := feeds_become_breaks "Two.".toList brokenHelp
  rw [cut] at here
  refine ⟨apart, cut, here, ?_⟩
  rw [behind apart, here]
  decide

end Handbook.Markdown
