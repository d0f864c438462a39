/-
**Which comments are dimmed as a whole.**

A comment is found by its margin and its number sign, with one sequence at most between them. The
passes over prose leave the margin and what follows it free of sequences. An item of a list that
loses its link can make a comment out of the end of its text and of what follows the link, and it
masks this comment when a sequence stands behind the link. That sequence closes a span that begins
in the target of the link, so the item loses the sequence that opens the span.

* `Beside.not_inMargin`: no sequence of colored prose stands in the margin of a comment;
* `placed_label`, `placed_listLink`: lists without links keep it so, where no item loses a sequence;
* `isComment_of_placed`: a line that shows a comment and has none there is taken for one;
* `comments_dimmed_iff`: all comments are dimmed as a whole exactly when none is masked.
-/

import Handbook.Proofs.Colorize.Placed
import Handbook.Proofs.Pattern.Located

namespace Handbook.Colorize

open Terminal Pattern Text

/-! ### Margins -/

/-- A line that shows a comment: four spaces, a number sign and at least one more character. -/
def ShowsComment (line : Text) : Prop :=
  ∃ words, words ≠ [] ∧ stripColors line = commentMargin ++ '#' :: words

/-- A place in the margin of a comment, or between the margin and the number sign, given what is
shown before it and behind it. -/
def InMargin (behind ahead : Text) : Prop :=
  ∃ earlier left right words, startsLine (lastChar none earlier) = true ∧ behind = earlier ++ left ∧
    left ++ right = commentMargin ∧ ahead = right ++ '#' :: words

variable {text line behind behind' shown ahead ahead' : Text}

/-- In a margin a place follows a space, or it starts the line and a space follows. -/
theorem InMargin.last (margin : InMargin behind ahead) :
    lastChar none behind = some ' ' ∨
      startsLine (lastChar none behind) = true ∧ ahead.head? = some ' ' := by
  obtain ⟨earlier, left, right, words, starts, rfl, whole, rfl⟩ := margin
  have spaces : ∀ c ∈ commentMargin, c = ' ' := List.all_iff_forall_prop.mp (by decide)
  rcases List.eq_nil_or_concat left with rfl | ⟨init, last, rfl⟩
  · rw [List.append_nil]
    rw [List.nil_append] at whole
    exact Or.inr ⟨starts, by rw [whole]; rfl⟩
  · have space := spaces last (whole ▸ by simp)
    exact Or.inl (by simp [lastChar, space])

/-- In a margin a space or the number sign follows. -/
theorem InMargin.head (margin : InMargin behind ahead) :
    ahead.head? = some ' ' ∨ ahead.head? = some '#' := by
  obtain ⟨_, left, right, words, _, _, whole, rfl⟩ := margin
  have spaces : ∀ c ∈ commentMargin, c = ' ' := List.all_iff_forall_prop.mp (by decide)
  cases right with
  | nil => exact Or.inr rfl
  | cons c others =>
    have space := spaces c (whole ▸ List.mem_append_right _ (List.mem_cons_self ..))
    exact Or.inl (by rw [space]; rfl)

/-- Behind the hyphen of an item there is no margin. -/
theorem not_inMargin_item : ¬ InMargin (shown ++ ['-', ' ']) ahead := by
  rintro ⟨earlier, left, right, words, starts, cut, whole, _⟩
  rcases List.eq_nil_or_concat left with rfl | ⟨init, last, rfl⟩
  · rw [List.append_nil] at cut
    rw [← cut] at starts
    simp [lastChar, startsLine] at starts
  · -- one character earlier there is no margin either, since the hyphen is none of its spaces
    rw [List.concat_eq_append] at cut whole
    have ends : (shown ++ ['-']) ++ [' '] = (earlier ++ init) ++ [last] := by
      rw [List.append_assoc, List.append_assoc]
      exact cut
    have same := (List.append_inj' ends rfl).1
    have sooner : InMargin (shown ++ ['-']) (last :: right ++ '#' :: words) :=
      ⟨earlier, init, last :: right, words, starts, same, by simpa using whole, rfl⟩
    rcases sooner.last with space | ⟨starts, _⟩
    · simp [lastChar] at space
    · simp [lastChar, startsLine] at starts

/-- What stands before a place in a text and what is shown before it once the lists have lost their
links: in a margin both end alike, or an item ends there whose last word has no sequence. -/
def Joined (behind shown ahead : Text) : Prop :=
  InMargin shown ahead → lastChar none behind = lastChar none shown ∨
    lastChar none behind = some ')' ∧ ¬ EndsColored behind

/-- Behind a plain character both end alike. -/
theorem Joined.last {c : Char} (intact : Intact behind') (plain : c ≠ escape) :
    Joined (behind ++ [c]) (stripColors (behind' ++ [c])) ahead := by
  have clear : escape ∉ [c] := by simpa using plain.symm
  rw [stripColors_append intact, stripColors_of_not_mem clear]
  exact fun _ => Or.inl (by simp [lastChar])

/-- Behind a sequence that stands in no margin there is none either. -/
theorem Joined.sequence {code : Text} (intact : Intact behind') (isCode : IsCode code)
    (outside : ¬ InMargin (stripColors behind') ahead) :
    Joined (behind ++ select code) (stripColors (behind' ++ select code)) ahead := by
  rw [stripColors_append intact, (shows_select isCode).visible, List.append_nil]
  exact fun margin => absurd margin outside

/-- **No sequence of colored prose stands in the margin of a comment**, nor where a margin goes on
behind the text of a link. -/
theorem Beside.not_inMargin {code : Text} (beside : Beside behind code ahead)
    (joined : Joined behind shown ahead')
    (same : ahead.head? = ahead'.head? ∨ ahead.head? = some ']') : ¬ InMargin shown ahead' := by
  intro margin
  rcases beside.place with ⟨c, ends, space, feed, word⟩ | opens
  · rcases joined margin with equal | ⟨closing, uncolored⟩
    · rcases margin.last with last | ⟨starts, _⟩
      · exact space (Option.some.inj (ends.symm.trans (equal.trans last)))
      · rw [← equal, ends] at starts
        exact feed (by simpa [startsLine] using starts)
    · exact uncolored (word (Option.some.inj (ends.symm.trans closing)))
  · rcases same with same | bracket
    · rcases margin.head with space | sign
      · exact (opens ' ' (same.trans space)).1 rfl
      · have starts := (opens '#' (same.trans sign)).2.2 rfl
        rcases margin.last with last | ⟨_, space⟩
        · rcases joined margin with equal | ⟨closing, _⟩
          · rw [equal, last] at starts
            exact absurd starts (by decide)
          · rw [closing] at starts
            exact absurd starts (by decide)
        · rw [sign] at space
          exact absurd space (by decide)
    · exact (opens ']' bracket).2.1 rfl

/-! ### Lists without links -/

/-- No sequence stands in the margin of a comment. -/
def OffMargin (before _code ahead : Text) : Prop := ¬ InMargin (stripColors before) ahead

/-- **The text of a link keeps margins free of sequences**, also where the margin goes on behind the
link. -/
theorem placed_label {label closing : Text} (labeled : Intact label) (intact : Intact behind')
    (joined : Joined behind (stripColors behind') (stripColors label ++ ahead))
    (placed : Placed Beside behind label (']' :: closing)) :
    Placed OffMargin behind' label ahead ∧
      Joined (behind ++ label) (stripColors (behind' ++ label)) ahead := by
  induction labeled using Intact.induction generalizing behind behind' with
  | nil =>
    rw [stripColors_of_not_mem List.not_mem_nil, List.nil_append] at joined
    rw [List.append_nil, List.append_nil]
    exact ⟨placed_of_not_mem List.not_mem_nil, joined⟩
  | plain c rest plain labeled step =>
    have one : Intact [c] := intact_nil.cons plain
    obtain ⟨later, joined⟩ := step (intact.append one) (.last intact plain) (placed.of_cons plain)
    rw [List.append_assoc, List.append_assoc] at joined
    exact ⟨.cons plain later, joined⟩
  | sequence code rest isCode labeled step =>
    have one := intact_select isCode
    obtain ⟨first, second⟩ := placed.of_append one
    rw [stripColors_select isCode] at joined
    have same : (stripColors rest ++ ']' :: closing).head? = (stripColors rest ++ ahead).head? ∨
        (stripColors rest ++ ']' :: closing).head? = some ']' := by
      cases stripColors rest with
      | nil => exact Or.inr rfl
      | cons c others => exact Or.inl rfl
    have outside := (first.code isCode).not_inMargin joined same
    obtain ⟨later, joined⟩ := step (intact.append one) (.sequence intact isCode outside) second
    rw [List.append_assoc, List.append_assoc] at joined
    exact ⟨.append one (placed_select isCode outside) later, joined⟩

theorem linkedItem_eq (label target : Text) : linkedItem label target =
    "- [".toList ++ (label ++ ("](#".toList ++ target ++ [')'])) := by
  simp [linkedItem]

/-- In the text of a link a rule holds as it does in the whole item, with a bracket behind. -/
theorem placed_itemLabel {rule : Text → Text → Text → Prop} {label target : Text}
    (labeled : Intact label) (item : Placed rule behind (linkedItem label target) ahead) :
    Placed rule (behind ++ "- [".toList) label
      (']' :: (stripColors ("(#".toList ++ target ++ [')']) ++ ahead)) := by
  have opening : escape ∉ "- [".toList := by decide
  rw [linkedItem_eq] at item
  have one := ((item.of_append (intact_of_not_mem opening)).2.of_append labeled).1
  have bracket : stripColors ("](#".toList ++ target ++ [')']) =
      ']' :: stripColors ("(#".toList ++ target ++ [')']) := stripColors_cons (by decide) _
  rwa [bracket] at one

/-- The target of a link without sequences leaves none in its word, behind a place in a margin. -/
theorem joined_linkedItem {label target : Text} (bare : escape ∉ target)
    (joined : Joined (behind ++ "- [".toList ++ label) shown ahead) :
    Joined (behind ++ linkedItem label target) shown ahead := by
  intro margin
  have closes : lastChar none (behind ++ linkedItem label target) = some ')' := by
    rw [linkedItem, ← List.append_assoc, lastChar_append]
    rfl
  refine Or.inr ⟨closes, fun ends => ?_⟩
  have clear : escape ∉ "](#".toList ++ target ++ [')'] := by
    have around : escape ∉ "](#".toList ∧ escape ∉ [')'] := by decide
    simp only [List.mem_append, not_or]
    exact ⟨⟨around.1, bare⟩, around.2⟩
  rw [linkedItem_eq, ← List.append_assoc, ← List.append_assoc] at ends
  have front := ends.of_append clear
  rcases joined margin with equal | ⟨_, uncolored⟩
  · obtain ⟨c, last, visible⟩ := front.exists_last
    obtain ⟨space, feed⟩ := ne_of_isBlank visible
    rw [equal] at last
    rcases margin.last with blank | ⟨starts, _⟩
    · exact space (Option.some.inj (last.symm.trans blank))
    · rw [last] at starts
      exact feed (by simpa [startsLine] using starts)
  · exact uncolored front

/-- Lists show the same first character with links and without. -/
theorem head?_listLink {pieces : List Piece} (woven : Woven Pattern.listLink text pieces) :
    (stripColors text).head? =
      (stripColors (pieces.flatMap (Piece.replaced listLink))).head? := by
  induction woven with
  | nil => rfl
  | plain plain _ _ =>
    show _ = (stripColors (_ :: _)).head?
    rw [stripColors_cons plain, stripColors_cons plain]
    rfl
  | sequence isCode _ step =>
    rw [List.flatMap_append, flatMap_replaced_plain, stripColors_select isCode,
      stripColors_select isCode, step]
  | found _ one found _ _ =>
    obtain ⟨label, target, _, rfl, rfl⟩ := exists_linkedItem one found
    show (stripColors ('-' :: _)).head? = (stripColors ('-' :: _)).head?
    rw [stripColors_cons (by decide), stripColors_cons (by decide)]
    rfl

/-- **Lists that lose their links, but no sequence, keep margins free of sequences.** -/
theorem placed_listLink {pieces : List Piece} (woven : Woven Pattern.listLink text pieces)
    (bare : ∀ label target, .found ⟨linkedItem label target, [label]⟩ ∈ pieces → escape ∉ target)
    (intact : Intact behind')
    (joined : Joined behind (stripColors behind')
      (stripColors (pieces.flatMap (Piece.replaced listLink))))
    (placed : Placed Beside behind text []) :
    Placed OffMargin behind' (pieces.flatMap (Piece.replaced listLink)) [] := by
  induction woven generalizing behind behind' with
  | nil => exact placed_of_not_mem List.not_mem_nil
  | plain plain _ step =>
    exact .cons plain (step
      (fun label target member => bare label target (List.mem_cons_of_mem _ member))
      (intact.append (intact_nil.cons plain)) (.last intact plain) (placed.of_cons plain))
  | @sequence code rest pieces isCode woven step =>
    have one := intact_select isCode
    obtain ⟨first, second⟩ := placed.of_append one
    rw [List.flatMap_append, flatMap_replaced_plain] at joined ⊢
    rw [stripColors_select isCode] at joined
    have same := head?_listLink woven
    rw [← List.append_nil (stripColors rest)] at same
    have outside := (first.code isCode).not_inMargin joined (Or.inl same)
    refine .append one (placed_select isCode ?_) (step
      (fun label target member => bare label target (List.mem_append_right _ member))
      (intact.append one) (.sequence intact isCode outside) second)
    rwa [OffMargin, List.append_nil]
  | @found before lexeme groups rest pieces _ one found woven step =>
    obtain ⟨label, target, labeled, rfl, rfl⟩ := exists_linkedItem one found
    obtain ⟨item, later⟩ := placed.of_append one
    have absent := bare label target (List.mem_cons_self ..)
    have hyphen : escape ∉ ['-', ' '] := by decide
    have front : Intact (behind' ++ ['-', ' ']) := intact.append (intact_of_not_mem hyphen)
    have joined : Joined (behind ++ "- [".toList) (stripColors (behind' ++ ['-', ' ']))
        (stripColors label ++ stripColors (pieces.flatMap (Piece.replaced listLink))) := by
      rw [stripColors_append intact, stripColors_of_not_mem hyphen]
      exact fun margin => absurd margin not_inMargin_item
    obtain ⟨here, next⟩ := placed_label labeled front joined (placed_itemLabel labeled item)
    rw [List.flatMap_cons]
    show Placed OffMargin behind' ((['-', ' '] ++ label) ++ _) []
    rw [List.append_assoc]
    refine .append (intact_of_not_mem hyphen) (placed_of_not_mem hyphen) (.append labeled ?_ ?_)
    · rwa [List.append_nil]
    · exact step (fun label target member => bare label target (List.mem_cons_of_mem _ member))
        (front.append labeled) (joined_linkedItem absent next) later

/-- **No sequence stands in the margin of a comment before code is colored**, where no item loses
one. -/
theorem placed_beforeCode (clear : escape ∉ text) (kept : ¬ LosesSequence text) :
    Placed OffMargin [] (beforeCode text) [] := by
  rw [beforeCode_eq, replaceAll]
  have woven := aligned_listLink.woven (shows_coloredProse clear).intact
  exact placed_listLink woven
    (fun label target member inside => kept ⟨label, target, member, inside⟩) intact_nil
    (fun _ => Or.inl rfl) (placed_coloredProse clear)

/-! ### Dimmed sequences -/

/-- A sequence that does not dim. -/
def Undimmed (_before code _ahead : Text) : Prop := code ≠ Style.dim.code

theorem undimmed_listLink {pieces : List Piece} (woven : Woven Pattern.listLink text pieces)
    (placed : Placed Undimmed behind text ahead) :
    Placed Undimmed behind' (pieces.flatMap (Piece.replaced listLink)) ahead' := by
  -- the rule does not look at what stands before a sequence or behind it
  have anywhere {behind behind' ahead ahead' painted : Text}
      (placed : Placed Undimmed behind painted ahead) : Placed Undimmed behind' painted ahead' :=
    fun before code after isCode cut => placed before code after isCode cut
  induction woven generalizing behind behind' with
  | nil => exact placed_of_not_mem List.not_mem_nil
  | plain plain _ step => exact .cons plain (step (placed.of_cons plain))
  | sequence isCode _ step =>
    obtain ⟨one, two⟩ := placed.of_append (intact_select isCode)
    rw [List.flatMap_append, flatMap_replaced_plain]
    exact .append (intact_select isCode) (anywhere one) (step two)
  | found _ one found _ step =>
    obtain ⟨label, target, labeled, rfl, rfl⟩ := exists_linkedItem one found
    obtain ⟨item, later⟩ := placed.of_append one
    have hyphen : escape ∉ ['-', ' '] := by decide
    rw [List.flatMap_cons]
    show Placed Undimmed behind' ((['-', ' '] ++ label) ++ _) _
    rw [List.append_assoc]
    exact .append (intact_of_not_mem hyphen) (placed_of_not_mem hyphen)
      (.append labeled (anywhere (placed_itemLabel labeled item)) (step later))

theorem undimmed_beforeCode (clear : escape ∉ text) : Placed Undimmed [] (beforeCode text) [] := by
  have prose : Placed Undimmed [] (coloredProse text) [] := fun before code after isCode cut =>
    (placed_coloredProse clear before code after isCode cut).color
  rw [beforeCode_eq, replaceAll]
  exact undimmed_listLink (aligned_listLink.woven (shows_coloredProse clear).intact) prose

/-! ### Line by line -/

/-- A line of an intact text is cut out of it between two line feeds. -/
theorem exists_line (intact : Intact text) (member : line ∈ split '\n' text) :
    ∃ before after, text = before ++ (line ++ after) ∧ Intact before ∧ Intact line ∧
      startsLine (lastChar none (stripColors before)) = true := by
  induction text using induction_lines with
  | single whole alone =>
    rw [split_of_not_mem alone, List.mem_singleton] at member
    rw [member]
    exact ⟨[], [], by simp, intact_nil, intact, rfl⟩
  | next first rest alone step =>
    obtain ⟨front, back⟩ := intact_lineFeed_iff.mp intact
    rw [split_append_cons, split_of_not_mem alone, List.singleton_append, List.mem_cons] at member
    rcases member with rfl | member
    · exact ⟨[], '\n' :: rest, by simp, intact_nil, front, rfl⟩
    · obtain ⟨before, after, rfl, one, two, starts⟩ := step back member
      have joined := intact_lineFeed_iff.mpr ⟨front, one⟩
      refine ⟨first ++ '\n' :: before, after, by simp, joined, two, ?_⟩
      rw [stripColors_append front, stripColors_cons (by decide), lastChar_append, lastChar_cons]
      cases shown : stripColors before with
      | nil => rfl
      | cons c others =>
        rw [shown, lastChar_cons] at starts
        rwa [lastChar_cons]

/-- **A line that shows a comment, with no sequence in its margin, is taken for a comment.** -/
theorem isComment_of_placed (whole : Intact line) (intact : Intact behind)
    (starts : startsLine (lastChar none (stripColors behind)) = true)
    (placed : Placed OffMargin behind line ahead) (shows : ShowsComment line) : IsComment line := by
  obtain ⟨words, nonempty, shown⟩ := shows
  rcases exists_cut escape line with clear | ⟨first, rest, clear, rfl⟩
  · rw [stripColors_of_not_mem clear] at shown
    exact ⟨[], words, Or.inl rfl, nonempty, by rw [shown, List.append_nil]⟩
  · obtain ⟨code, after, isCode, sequence⟩ := whole.of_append_right.whole
    rw [sequence] at shown placed ⊢
    rw [stripColors_append (intact_of_not_mem clear), stripColors_of_not_mem clear,
      stripColors_select isCode] at shown
    obtain ⟨_, behindFirst⟩ := placed.of_append (intact_of_not_mem clear)
    have outside := (behindFirst.of_append (intact_select isCode)).1.code isCode
    rw [OffMargin, stripColors_append intact, stripColors_of_not_mem clear] at outside
    -- the first sequence stands in the margin, or behind the number sign
    rcases List.append_eq_append_iff.mp shown with ⟨right, whole, sign⟩ | ⟨more, rfl, sign⟩
    · exact absurd
        ⟨_, first, right, words ++ ahead, starts, rfl, whole.symm, by simp [sign]⟩ outside
    · cases more with
      | nil =>
        rw [List.append_nil] at outside
        exact absurd ⟨_, commentMargin, [], words ++ ahead, starts, rfl, List.append_nil _,
          by simpa using congrArg (· ++ ahead) sign.symm⟩ outside
      | cons c others =>
        obtain ⟨rfl, _⟩ := List.cons.inj sign
        exact ⟨[], others ++ (select code ++ after), Or.inl rfl, by simp [select], by simp⟩

/-! ### Whole cheatsheets -/

/-- A cheatsheet with a line that shows a comment when comments are about to be dimmed, but that is
not taken for one. -/
def MasksComment (text : Text) : Prop :=
  ∃ line ∈ split '\n' (beforeCode text), ShowsComment line ∧ ¬ IsComment line

/-- **Only an item that loses a sequence masks a comment.** -/
theorem losesSequence_of_masksComment (clear : escape ∉ text) (masks : MasksComment text) :
    LosesSequence text := by
  obtain ⟨line, member, shows, other⟩ := masks
  by_contra kept
  have intact := intact_beforeCode clear
  have placed := placed_beforeCode clear kept
  obtain ⟨before, after, cut, front, whole, starts⟩ := exists_line intact member
  rw [cut] at placed
  have here := ((placed.of_append front).2.of_append whole).1
  exact other (isComment_of_placed whole front starts here shows)

/-- A line that is no comment is not dimmed by any other pass. -/
theorem ne_dimmed (clear : escape ∉ text) (member : line ∈ split '\n' (beforeCode text))
    (words : Text) : line ≠ styled .dim words := by
  rintro rfl
  obtain ⟨before, after, cut, _⟩ := exists_line (intact_beforeCode clear) member
  exact undimmed_beforeCode clear before _ (words ++ reset ++ after) (isCode_style .dim)
    (by rw [cut]; simp [styled]) rfl

/-- **The lines of a colored cheatsheet that show a comment are dimmed as a whole, and have no other
color, exactly when no comment is masked, and that takes an item of a list that loses a color
sequence with the target of its link.** -/
theorem comments_dimmed_iff (text : Text) (clear : escape ∉ text)
    (unfenced : Pattern.codeFence.occurrences (beforeCode text) = []) :
    ((∀ line ∈ split '\n' (cheatsheet text), ShowsComment line →
        line = styled .dim (stripColors line)) ↔ ¬ MasksComment text) ∧
      (MasksComment text → LosesSequence text) := by
  refine ⟨?_, losesSequence_of_masksComment clear⟩
  have intact := intact_beforeCode clear
  rw [cheatsheet_eq, replaceAll_of_occurrences unfenced, linewise_dimComments.split,
    List.forall_mem_map]
  constructor
  · rintro dimmed ⟨line, member, shows, other⟩
    have alone := lineFeed_not_mem_of_mem_split member
    have same := dimmed line member
    rw [dimComments_other alone other] at same
    exact ne_dimmed clear member _ (same shows)
  · intro unmasked line member shows
    have alone := lineFeed_not_mem_of_mem_split member
    obtain ⟨_, _, _, _, whole, _⟩ := exists_line intact member
    by_cases isComment : IsComment line
    · have plain : escape ∉ stripColors line := escape_not_mem_swept sweeps_colorSequence whole
      rw [dimComments_comment alone isComment, stripColors_styled .dim (intact_of_not_mem plain),
        stripColors_of_not_mem plain]
    · rw [dimComments_other alone isComment] at shows
      exact absurd ⟨line, member, shows, isComment⟩ unmasked

/-- An item of a list whose text ends with three spaces on a line of their own, and whose target is
an address. -/
def linkedAddress : Text := "- [a\n   ](#http://x) # foo".toList

/-- What is left of it as a line that shows a comment. -/
def maskedComment : Text := "   \x1b[0m # foo".toList

theorem showsComment_maskedComment : ShowsComment maskedComment :=
  ⟨" foo".toList, by decide, by decide +kernel⟩

theorem not_isComment_maskedComment : ¬ IsComment maskedComment := by
  rintro ⟨paint, words, _, _, cut⟩
  have starts : commentMargin <+: maskedComment := by
    rw [cut, List.append_assoc]
    exact List.prefix_append _ _
  exact absurd starts (by decide)

theorem comments_dimmed_iff_linkedAddress :
    escape ∉ linkedAddress ∧ Pattern.codeFence.occurrences (beforeCode linkedAddress) = [] ∧
      MasksComment linkedAddress ∧ LosesSequence linkedAddress := by
  have clear : escape ∉ linkedAddress := by decide
  have unfenced : Pattern.codeFence.occurrences (beforeCode linkedAddress) = [] := by
    decide +kernel
  have masks : MasksComment linkedAddress :=
    ⟨maskedComment, by decide +kernel, showsComment_maskedComment, not_isComment_maskedComment⟩
  exact ⟨clear, unfenced, masks, (comments_dimmed_iff linkedAddress clear unfenced).2 masks⟩

/-- The address is colored with the parenthesis behind it, so its reset stays behind when the target
is dropped, and it stands in the margin of the comment that is left. -/
theorem linkedAddress_masked :
    escape ∉ linkedAddress ∧ Pattern.codeFence.occurrences (beforeCode linkedAddress) = [] ∧
      ∃ line ∈ split '\n' (cheatsheet linkedAddress), ShowsComment line ∧
        line ≠ styled .dim (stripColors line) :=
  ⟨by decide, by decide +kernel, maskedComment, by decide +kernel, showsComment_maskedComment,
    by decide +kernel⟩

end Handbook.Colorize
