/-
**When a block of code is rendered.**

A document that is one block of code is shown without its fences and with a margin. By the time the
pass over blocks runs, the other passes have colored the code and left the fences as they are. The
pass takes the code up to the next backtick, and finds no block where that is not the closing fence.

* `rows_indent`: the rows of an indented text are its rows, each behind a margin;
* `beforeCode_fenced`: the passes before that color the code alone;
* `shows_code`: where nothing is called, colored code shows the code;
* `not_fenced_cut`: a fenced text is no other block with something around it;
* `cheatsheet_renders_iff`: a block is rendered exactly when its code holds no backtick.
-/

import Handbook.Proofs.Colorize.Linewise
import Handbook.Proofs.Layout.Cheatsheet

namespace Handbook.Pattern

open Terminal

/-- **A pass that finds nothing in what a text shows leaves the text.** -/
theorem Woven.replaced_of_absent {pattern : Pattern} {text : Text} {pieces : List Piece}
    {replace : Match → Text} (woven : Woven pattern text pieces)
    (absent : ∀ {before lexeme groups rest}, Intact lexeme →
      pattern.reach? before (lexeme ++ rest) = some ⟨lexeme.length, groups⟩ →
      ∀ first later, stripColors text ≠ first ++ (stripColors lexeme ++ later)) :
    pieces.flatMap (Piece.replaced replace) = text := by
  induction woven with
  | nil => rfl
  | @plain c rest pieces plain _ step =>
    refine congrArg (c :: ·) (step fun one found first later cut => ?_)
    refine absent one found (c :: first) later ?_
    rw [stripColors_cons plain, cut, List.cons_append]
  | @sequence code rest pieces isCode _ step =>
    rw [stripColors_select isCode] at absent
    rw [List.flatMap_append, flatMap_replaced_plain, step absent]
  | found _ one found _ _ => exact absurd (stripColors_append one _) (absent one found [] _)

end Handbook.Pattern

namespace Handbook.Colorize

open Terminal Pattern Text Unicode

/-! ### Rows -/

/-- The rows of a text: its lines, without what ends them, as far as they have more than blanks. -/
def rows (text : Text) : List Text := (splitWhere isLineBreak text).filter (!isBlankText ·)

theorem rows_nil : rows [] = [] := rfl

theorem rows_append_break {c : Char} (ends : isLineBreak c = true) (first second : Text) :
    rows (first ++ c :: second) = rows first ++ rows second := by
  rw [rows, splitWhere_append_cons ends, List.filter_append]
  rfl

theorem rows_line {line : Text} (inside : ∀ c ∈ line, isLineBreak c = false) :
    rows line = if isBlankText line then [] else [line] := by
  rw [rows, splitWhere_of_absent inside]
  cases blank : isBlankText line <;> simp [blank]

/-- Before a line boundary an intact text is intact. -/
theorem intact_of_break {c : Char} (ends : isLineBreak c = true) {words rest : Text}
    (intact : Intact (words ++ c :: rest)) : Intact words ∧ Intact rest := by
  have outer : isInner c = false := isInner_of_isBlank (isBlank_of_isLineBreak ends)
  exact ⟨intact.of_stops (stops_cons outer rest), intact.of_append_right.of_cons⟩

theorem stripColors_break {c : Char} (ends : isLineBreak c = true) {words : Text}
    (intact : Intact words) (rest : Text) :
    stripColors (words ++ c :: rest) = stripColors words ++ c :: stripColors rest := by
  rw [stripColors_append intact, stripColors_cons (ne_escape_of_isLineBreak ends)]

/-- A line that shows only blanks may hold sequences and get a margin, and is no row either way. -/
theorem rows_indentLine {line : Text} (inside : ∀ c ∈ line, isLineBreak c = false) :
    rows (stripColors (indentLine line)) = (rows (stripColors line)).map (margin ++ ·) := by
  have shown : ∀ c ∈ stripColors line, isLineBreak c = false := fun c member =>
    inside c (mem_of_mem_stripColors member)
  unfold indentLine
  split
  · rename_i blank
    have clear : escape ∉ line := fun member =>
      absurd (List.all_eq_true.mp blank escape member) (by decide)
    rw [rows_line shown, stripColors_of_not_mem clear, if_pos blank]
    rfl
  · have clear : escape ∉ margin := by decide
    rw [stripColors_append (intact_of_not_mem clear), stripColors_of_not_mem clear,
      rows_line (isLineBreak_margin_append shown), rows_line shown, isBlankText_margin_append]
    split <;> rfl

/-- **The rows of an indented text are its rows, each behind a margin.** -/
theorem rows_indent {painted : Text} (intact : Intact painted) :
    Intact (indent painted) ∧
      rows (stripColors (indent painted)) = (rows (stripColors painted)).map (margin ++ ·) := by
  refine ⟨(frays_indent (.of_intact intact)).intact.mpr intact, ?_⟩
  have whole {line : Text} (intact : Intact line) : Intact (indentLine line) :=
    (frays_indentLine (.of_intact intact)).intact.mpr intact
  induction painted using induction_firstLine with
  | nil => rfl
  | next line rest first step =>
    rw [indent_firstLine first]
    cases first with
    | last _ inside =>
      rw [List.append_nil] at intact
      rw [indent_nil, List.append_nil, List.append_nil]
      exact rows_indentLine inside
    | @ends words c _ inside ends _ =>
      rw [List.append_assoc, List.singleton_append] at intact ⊢
      obtain ⟨front, back⟩ := intact_of_break ends intact
      rw [indentLine_append_blank words (isBlank_of_isLineBreak ends), List.append_assoc,
        List.singleton_append, stripColors_break ends (whole front), stripColors_break ends front,
        rows_append_break ends, rows_append_break ends, List.map_append,
        rows_indentLine inside, step back]
    | @endsTwice words _ inside =>
      have once : isLineBreak '\r' = true ∧ isLineBreak '\n' = true := by decide
      rw [List.append_assoc, List.cons_append, List.singleton_append] at intact ⊢
      obtain ⟨front, back⟩ := intact_of_break once.1 intact
      have behind (rest : Text) : rows (stripColors ('\n' :: rest)) = rows (stripColors rest) := by
        rw [stripColors_cons (by decide)]
        exact rows_append_break once.2 [] _
      rw [indentLine_lineEnd, List.append_assoc, List.cons_append, List.singleton_append,
        stripColors_break once.1 (whole front), stripColors_break once.1 front,
        rows_append_break once.1, rows_append_break once.1, List.map_append,
        rows_indentLine inside, behind, behind, step back.of_cons]

/-! ### Documents of one block -/

/-- A document of one block of code in a language, and what stands behind it. -/
def fenced (language body ending : Text) : Text :=
  fence ++ language ++ '\n' :: (body ++ '\n' :: (fence ++ ending))

/-- A block of code is rendered: its fences are gone, and its rows stand behind a margin. -/
structure Rendered (body visible : Text) : Prop where
  unfenced : occursIn fence visible = false
  rows : rows visible = (rows body).map (margin ++ ·)

/-! ### The passes before the one over blocks -/

theorem replaceAll_literal_of_not_mem {needle text : Text} {replace : Match → Text} {c : Char}
    (inside : c ∈ needle) (absent : c ∉ text) :
    (Pattern.literal needle).replaceAll replace text = text := by
  have nonempty : needle ≠ [] := List.ne_nil_of_mem inside
  refine (proper_literal nonempty).replaceAll_of_not_mem (fun found => ?_) absent
  obtain ⟨rest, cut, size⟩ := reach?_literal found
  rwa [(occurrence_eq cut size).1]

/-- Without brackets there are no links to other references. -/
theorem unlinked_of_not_mem {text : Text} (absent : '[' ∉ text) : unlinked text = text := by
  have links : ∀ reference ∈ crossReferences, '[' ∈ reference.link := by decide
  rw [unlinked, crossReferencePasses]
  generalize crossReferences = references at links
  induction references with
  | nil => rfl
  | cons reference others step =>
    have alone : reference.pass.apply text = text :=
      replaceAll_literal_of_not_mem (links reference (List.mem_cons_self ..)) absent
    have later := step fun other member => links other (List.mem_cons_of_mem _ member)
    refine (congrArg (Pass.applyAll (others.map CrossReference.pass)) alone).trans later

/-- Numbers and prose are colored line by line. -/
theorem coloredProse_lineFeed {first second : Text} (absent : '[' ∉ first ++ '\n' :: second) :
    coloredProse (first ++ '\n' :: second) = coloredProse first ++ '\n' :: coloredProse second := by
  have parts : '[' ∉ first ∧ '[' ∉ second := by
    rw [List.mem_append, List.mem_cons, not_or, not_or] at absent
    exact ⟨absent.1, absent.2.2⟩
  simp only [coloredProse]
  rw [unlinked_of_not_mem absent, unlinked_of_not_mem parts.1, unlinked_of_not_mem parts.2,
    linewise_number.replaceAll_append_lineFeed, prose_parts]

/-- A document may end with a line feed. -/
def Ends (ending : Text) : Prop := ending = [] ∨ ending = ['\n']

variable {language body ending : Text}

theorem not_mem_fenced {c : Char} (tagged : language ∈ fenceLanguages) (ends : Ends ending)
    (other : c ≠ '\x60' ∧ c ≠ '\n' ∧ c.isLower = false) (absent : c ∉ body) :
    c ∉ fenced language body ending := by
  have letters : ∀ language ∈ fenceLanguages, language.all Char.isLower = true := by decide
  have outside : c ∉ language := fun member => by
    rw [List.all_eq_true.mp (letters language tagged) c member] at other
    exact absurd other.2.2 (by decide)
  have behind : c ∉ ending := by
    rcases ends with rfl | rfl
    · exact List.not_mem_nil
    · simpa using other.2.1
  simp [fenced, fence, other, outside, absent, behind]

theorem coloredProse_fenced (tagged : language ∈ fenceLanguages) (ends : Ends ending)
    (absent : '[' ∉ body) :
    coloredProse (fenced language body ending) = fenced language (coloredProse body) ending := by
  have inside : '[' ∉ fenced language body ending :=
    not_mem_fenced tagged ends (by decide) absent
  have later : '[' ∉ body ++ '\n' :: (fence ++ ending) := fun member =>
    inside (List.mem_append_right _ (List.mem_cons_of_mem _ member))
  have opening : ∀ language ∈ fenceLanguages, coloredProse (fence ++ language) = fence ++ language := by
    decide +kernel
  have closing : coloredProse (fence ++ ending) = fence ++ ending := by
    rcases ends with rfl | rfl <;> decide +kernel
  rw [fenced, coloredProse_lineFeed inside, coloredProse_lineFeed later, opening language tagged,
    closing, fenced]

/-- A document of one block with its prose in color shows the document. -/
theorem shows_fenced (tagged : language ∈ fenceLanguages) (ends : Ends ending)
    (clear : escape ∉ body) (absent : '[' ∉ body) :
    Shows (fenced language (coloredProse body) ending) (fenced language body ending) := by
  have shows := shows_coloredProse (not_mem_fenced tagged ends (by decide) clear)
  rwa [unlinked_of_not_mem (not_mem_fenced tagged ends (by decide) absent),
    coloredProse_fenced tagged ends absent] at shows

/-- **The passes before the one over blocks color the code alone.** -/
theorem beforeCode_fenced (tagged : language ∈ fenceLanguages) (ends : Ends ending)
    (clear : escape ∉ body) (absent : '[' ∉ body) :
    beforeCode (fenced language body ending) = fenced language (coloredProse body) ending := by
  have inside : '[' ∉ fenced language body ending :=
    not_mem_fenced tagged ends (by decide) absent
  have shows := shows_fenced tagged ends clear absent
  rw [beforeCode_eq, coloredProse_fenced tagged ends absent]
  refine (aligned_listLink.woven shows.intact).replaced_of_absent
    fun whole found first later cut => ?_
  -- an item of a list shows a bracket
  obtain ⟨label, target, _, rfl, _⟩ := exists_linkedItem whole found
  have bracket : '[' ∈ stripColors (linkedItem label target) := by
    have plain : escape ∉ "- [".toList := by decide
    rw [linkedItem, List.append_assoc, List.append_assoc, stripColors_append (intact_of_not_mem plain),
      stripColors_of_not_mem plain]
    exact List.mem_append_left _ (by decide)
  rw [shows.visible] at cut
  rw [cut] at inside
  exact inside (List.mem_append_right _ (List.mem_append_left _ bracket))

/-! ### Code without calls -/

theorem recolors_codeOperator {name : String} :
    Recolors ⟨name, .codeOperator, codeOperator⟩ where
  aligned := by
    refine ⟨fun {before text reach} found => ?_⟩
    obtain ⟨operator, rest, member, cut, size⟩ := reach?_codeOperator found
    refine ⟨' ', operator ++ [' '], rest, by decide, by decide,
      .clear (escape_not_mem_operator member), cut, ?_⟩
    rw [size]
    simp
  shows := by
    intro before lexeme groups rest _ found
    obtain ⟨operator, later, member, cut, size⟩ := reach?_codeOperator found
    obtain ⟨rfl, rfl⟩ := occurrence_eq cut size
    have each : ∀ operator ∈ codeOperators, escape ∉ operator := by decide
    have space := shows_plain [' '] (by decide)
    have shows := (space.append (shows_colored .cyan _ (each operator member))).append space
    refine ⟨shows.intact, shows.visible.trans ?_⟩
    rw [stripColors_of_not_mem (escape_not_mem_operator member)]
    rfl

/-- **Where nothing is called, colored code shows the code.** -/
theorem shows_code {painted shown : Text} (shows : Shows painted shown) (absent : '(' ∉ shown) :
    Shows (code painted) shown := by
  have literals : Shows (colorLiterals painted) shown :=
    (recolors_whole .yellow aligned_codeLiteral : Recolors ⟨"fence_literal", _, _⟩).apply shows
  have calls : colorCalls (colorLiterals painted) = colorLiterals painted := by
    refine closed_codeCall.proper.replaceAll_of_not_mem (c := '(') (fun found => ?_)
      (literals.not_mem (by decide) (by decide) absent)
    obtain ⟨name, rest, _, _, cut, size⟩ := reach?_codeCall found
    rw [(occurrence_eq cut size).1]
    exact List.mem_append_right _ (List.mem_singleton_self _)
  have operators : Shows (colorOperators (colorLiterals painted)) shown :=
    (recolors_codeOperator : Recolors ⟨"fence_operator", _, _⟩).apply literals
  rw [← calls] at operators
  exact operators

/-! ### Where a block begins -/

/-- The name of a language holds neither backticks nor line feeds. -/
theorem tag_plain (tagged : language ∈ fenceLanguages) :
    language ≠ [] ∧ ∀ c ∈ language, c ≠ '\x60' ∧ c ≠ '\n' := by
  have each : ∀ language ∈ fenceLanguages,
      language ≠ [] ∧ '\x60' ∉ language ∧ '\n' ∉ language := by decide
  obtain ⟨nonempty, noTick, noFeed⟩ := each language tagged
  exact ⟨nonempty, fun c member =>
    ⟨fun same => noTick (same ▸ member), fun same => noFeed (same ▸ member)⟩⟩

theorem stops_tag {test : Char → Bool} (tagged : language ∈ fenceLanguages)
    (fails : ∀ c ∈ language, test c = false) (rest : Text) : Stops test (language ++ rest) := by
  cases language with
  | nil => exact absurd rfl (tag_plain tagged).1
  | cons c others => exact stops_cons (fails c (List.mem_cons_self ..)) _

theorem all_fence : ∀ c ∈ fence, (c == '\x60') = true := List.all_eq_true.mp (by decide)

/-- Behind the first line of the document no fence with a language begins. -/
theorem not_tagged_cut {tag : Text} (unfenced : occursIn fence body = false) (ends : Ends ending)
    (tagged : tag ∈ fenceLanguages) (first later : Text) :
    body ++ '\n' :: (fence ++ ending) ≠ first ++ (fence ++ (tag ++ later)) := by
  intro cut
  rcases List.append_eq_append_iff.mp cut with ⟨between, _, tail⟩ | ⟨between, rfl, tail⟩
  · -- no letter stands behind the code
    have letters : ∀ language ∈ fenceLanguages,
        language.any (· ∉ '\n' :: (fence ++ ['\n'])) = true := by decide
    obtain ⟨c, member, other⟩ := List.any_eq_true.mp (letters tag tagged)
    rw [decide_eq_true_iff] at other
    have inside : c ∈ '\n' :: (fence ++ ending) := by
      rw [tail]
      simp [member]
    rcases ends with rfl | rfl
    · rw [List.append_nil] at inside
      exact other (List.mem_cons.mpr ((List.mem_cons.mp inside).imp_right (List.mem_append_left _)))
    · exact other inside
  · -- the fence stands before the line feed, and so in the code
    have stops : Stops (· == '\x60') ('\n' :: (fence ++ ending)) := stops_cons (by decide) _
    obtain ⟨more, rfl, _⟩ := exists_of_stops all_fence stops tail
    have occurs : occursIn fence (first ++ (fence ++ more)) = true :=
      occursIn_iff.mpr ⟨first, more, (List.append_assoc ..).symm⟩
    rw [unfenced] at occurs
    exact absurd occurs (by decide)

/-- The fence at the beginning closes only where the code holds no backtick. -/
theorem not_closed_cut {inside : Text} (unfenced : occursIn fence body = false)
    (ticked : '\x60' ∈ body) (plain : '\x60' ∉ inside) (later : Text) :
    body ++ '\n' :: (fence ++ ending) ≠ inside ++ (fence ++ later) := by
  intro cut
  obtain ⟨before, after, rfl, absent⟩ := List.eq_append_cons_of_mem ticked
  have all {text : Text} (absent : '\x60' ∉ text) : ∀ c ∈ text, (c != '\x60') = true := by
    intro c member
    rw [bne_iff_ne]
    exact fun same => absent (same ▸ member)
  have behind : Stops (· != '\x60') ('\x60' :: (after ++ '\n' :: (fence ++ ending))) :=
    stops_cons (by decide) _
  have closing : Stops (· != '\x60') (fence ++ later) := stops_cons (by decide) _
  rw [List.append_assoc, List.cons_append] at cut
  have same : before = inside := by
    rw [← takeWhile_cut (all absent) behind, cut, takeWhile_cut (all plain) closing]
  rw [same] at cut
  have tail : fence ++ later = ('\x60' :: after) ++ '\n' :: (fence ++ ending) :=
    (List.append_cancel_left cut).symm
  obtain ⟨more, whole, _⟩ := exists_of_stops all_fence (stops_cons (by decide) _) tail
  have occurs : occursIn fence (before ++ '\x60' :: after) = true :=
    occursIn_iff.mpr ⟨before, more, by rw [whole, List.append_assoc]⟩
  rw [unfenced] at occurs
  exact absurd occurs (by decide)

/-- **A document of one block whose code holds a backtick has no block for the pass**, wherever it
may begin. -/
theorem not_fenced_cut {tag inside : Text} (tagged : language ∈ fenceLanguages)
    (tagged' : tag ∈ fenceLanguages) (ends : Ends ending) (unfenced : occursIn fence body = false)
    (ticked : '\x60' ∈ body) (plain : '\x60' ∉ inside) (first later : Text) :
    fenced language body ending ≠
      first ++ ((fence ++ tag ++ '\n' :: inside ++ fence) ++ later) := by
  intro cut
  simp only [fenced, List.append_assoc, List.cons_append] at cut
  have bare := tag_plain tagged
  rcases List.append_eq_append_iff.mp cut with ⟨between, rfl, tail⟩ | ⟨between, opening, tail⟩
  · -- behind the fence and its language, the block would begin in the code or behind it
    have all : ∀ c ∈ language ++ ['\n'], (c != '\x60') = true := by
      intro c member
      rcases List.mem_append.mp member with early | feed
      · rw [bne_iff_ne]
        exact (bare.2 c early).1
      · rw [List.mem_singleton.mp feed]
        decide
    have stops : Stops (· != '\x60') (fence ++ (tag ++ '\n' :: (inside ++ (fence ++ later)))) :=
      stops_cons (by decide) _
    have whole : (language ++ ['\n']) ++ (body ++ '\n' :: (fence ++ ending)) =
        between ++ (fence ++ (tag ++ '\n' :: (inside ++ (fence ++ later)))) := by
      rw [← tail, List.append_assoc]
      rfl
    obtain ⟨more, _, behind⟩ := exists_of_stops all stops whole
    exact not_tagged_cut unfenced ends tagged' more _ behind
  · have stops : Stops (· == '\x60') (language ++ '\n' :: (body ++ '\n' :: (fence ++ ending))) :=
      stops_tag tagged (fun c member => by simpa using (bare.2 c member).1) _
    obtain ⟨more, rfl, behind⟩ := exists_of_stops all_fence stops tail
    have start : first = [] ∧ more = [] := by
      have sizes := congrArg List.length opening
      simp only [List.length_append] at sizes
      exact ⟨List.eq_nil_of_length_eq_zero (by omega), List.eq_nil_of_length_eq_zero (by omega)⟩
    obtain ⟨rfl, rfl⟩ := start
    have all {tag : Text} (tagged : tag ∈ fenceLanguages) : ∀ c ∈ tag, (c != '\n') = true :=
      fun c member => by
        rw [bne_iff_ne]
        exact ((tag_plain tagged).2 c member).2
    rw [List.nil_append] at behind
    have stops (rest : Text) : Stops (· != '\n') ('\n' :: rest) := stops_cons (by decide) rest
    have same : language = tag := by
      rw [← takeWhile_cut (all tagged) (stops _), ← behind, takeWhile_cut (all tagged') (stops _)]
    rw [same] at behind
    exact not_closed_cut unfenced ticked plain later
      (List.cons.inj (List.append_cancel_left behind)).2.symm

/-! ### The pass over blocks -/

/-- **Code without backticks is one block.** -/
theorem beforeComments_fenced {painted : Text} (tagged : language ∈ fenceLanguages)
    (ends : Ends ending) (plain : '\x60' ∉ painted) :
    Pattern.codeFence.replaceAll codeFence (fenced language painted ending) =
      indent (code ('\n' :: (painted ++ ['\n']))) ++ ending := by
  have absent : '\x60' ∉ painted ++ ['\n'] := by
    rw [List.mem_append, not_or]
    exact ⟨plain, by decide⟩
  have whole : fenced language painted ending =
      (fence ++ language ++ '\n' :: (painted ++ ['\n']) ++ fence) ++ ending := by simp [fenced]
  have behind (before : Option Char) :
      Pattern.codeFence.replaceFrom codeFence before ending = ending := by
    rcases ends with rfl | rfl
    · exact replaceFrom_nil aligned_codeFence.proper before
    · rw [replaceFrom_plain rfl, replaceFrom_nil aligned_codeFence.proper]
  rw [whole, replaceAll_eq,
    replaceFrom_found (by simp [fence]) (codeFence_block tagged (by simp) absent ending), behind]
  rfl

/-- **Code with a backtick is left with its fences.** -/
theorem beforeComments_ticked {painted : Text} (tagged : language ∈ fenceLanguages)
    (ends : Ends ending) (unfenced : occursIn fence body = false) (ticked : '\x60' ∈ body)
    (shows : Shows (fenced language painted ending) (fenced language body ending)) :
    Pattern.codeFence.replaceAll codeFence (fenced language painted ending) =
      fenced language painted ending := by
  refine (aligned_codeFence.woven shows.intact).replaced_of_absent
    fun {before lexeme groups rest} whole found first later cut => ?_
  obtain ⟨tag, inside, others, tagged', plain, same, size⟩ := reach?_codeFence found
  obtain ⟨rfl, rfl⟩ := occurrence_eq same size
  obtain ⟨_, intact, groups⟩ := exists_code whole found
  obtain rfl := (List.cons.inj (List.cons.inj groups).1).2
  have tags : ∀ tag ∈ fenceLanguages, escape ∉ fence ++ tag ++ ['\n'] := by decide
  have opening := shows_plain _ (tags tag tagged')
  have middle : Shows inside (stripColors inside) := ⟨intact, rfl⟩
  have visible := ((opening.append middle).append (shows_plain fence (by decide))).visible
  have lexeme : fence ++ tag ++ ['\n'] ++ inside ++ fence =
      fence ++ tag ++ '\n' :: inside ++ fence := by simp
  rw [lexeme] at visible
  rw [shows.visible, visible] at cut
  refine not_fenced_cut tagged tagged' ends unfenced ticked
    (fun member => plain (mem_of_mem_stripColors member)) first later (cut.trans ?_)
  simp

/-! ### Rendered blocks -/

theorem occursIn_fence_of_not_mem {text : Text} (plain : '\x60' ∉ text) :
    occursIn fence text = false := by
  rw [Bool.eq_false_iff]
  intro occurs
  obtain ⟨before, after, rfl⟩ := occursIn_iff.mp occurs
  exact plain (List.mem_append_left _ (List.mem_append_right _ (by decide)))

theorem shows_painted (clear : escape ∉ body) (bracket : '[' ∉ body) :
    Shows (coloredProse body) body := by
  have shows := shows_coloredProse clear
  rwa [unlinked_of_not_mem bracket] at shows

theorem rendered_of_not_mem (tagged : language ∈ fenceLanguages) (ends : Ends ending)
    (clear : escape ∉ body) (bracket : '[' ∉ body) (call : '(' ∉ body) (plain : '\x60' ∉ body) :
    Rendered body (stripColors (cheatsheet (fenced language body ending))) := by
  have painted := shows_painted clear bracket
  have feed := shows_plain ['\n'] (by decide)
  have inside := feed.append (painted.append feed)
  rw [List.singleton_append, List.singleton_append] at inside
  have shows := shows_code inside (by simp [call])
  obtain ⟨intact, indented⟩ := rows_indent shows.intact
  have clear' : escape ∉ ending := by rcases ends with rfl | rfl <;> decide
  have whole : Shows (indent (code ('\n' :: (coloredProse body ++ ['\n']))) ++ ending)
      (stripColors (indent (code ('\n' :: (coloredProse body ++ ['\n'])))) ++ ending) :=
    Shows.append ⟨intact, rfl⟩ (shows_plain ending clear')
  have ticks : '\x60' ∉ coloredProse body := painted.not_mem (by decide) (by decide) plain
  rw [cheatsheet_eq, beforeCode_fenced tagged ends clear bracket,
    beforeComments_fenced tagged ends ticks, (shows_dimComments whole).visible]
  have feeds : isLineBreak '\n' = true := by decide
  constructor
  · refine occursIn_fence_of_not_mem fun member => ?_
    rcases List.mem_append.mp member with front | back
    · have absent : '\x60' ∉ '\n' :: (body ++ ['\n']) := by simp [plain]
      rcases mem_of_mem_indent (mem_of_mem_stripColors front) with inside | space
      · exact shows.not_mem (by decide) (by decide) absent inside
      · exact absurd space (by decide)
    · rcases ends with rfl | rfl
      · exact absurd back List.not_mem_nil
      · exact absurd back (by decide)
  · have behind (text : Text) : rows (text ++ ending) = rows text := by
      rcases ends with rfl | rfl
      · rw [List.append_nil]
      · rw [rows_append_break feeds, rows_nil, List.append_nil]
    have body_rows : rows ('\n' :: (body ++ ['\n'])) = rows body := by
      have first := rows_append_break feeds [] (body ++ ['\n'])
      rw [List.nil_append, rows_append_break feeds body, rows_nil, List.nil_append,
        List.append_nil] at first
      exact first
    rw [behind, indented, shows.visible, body_rows]

theorem visible_of_mem (tagged : language ∈ fenceLanguages) (ends : Ends ending)
    (clear : escape ∉ body) (unfenced : occursIn fence body = false) (bracket : '[' ∉ body)
    (ticked : '\x60' ∈ body) :
    stripColors (cheatsheet (fenced language body ending)) = fenced language body ending := by
  have shows := shows_fenced tagged ends clear bracket
  rw [cheatsheet_eq, beforeCode_fenced tagged ends clear bracket,
    beforeComments_ticked tagged ends unfenced ticked shows, (shows_dimComments shows).visible]

/-- **A block of code is rendered exactly when its code holds no backtick.** The code neither calls
anything nor holds a bracket or a fence. With a backtick in it, the document keeps its fences and
gets no margin: it shows what it was. Lines end at every line boundary, as they do for the margin. -/
theorem cheatsheet_renders_iff (language body ending : Text) (tagged : language ∈ fenceLanguages)
    (ends : Ends ending) (clear : escape ∉ body) (unfenced : occursIn fence body = false)
    (bracket : '[' ∉ body) (call : '(' ∉ body) :
    (Rendered body (stripColors (cheatsheet (fenced language body ending))) ↔ '\x60' ∉ body) ∧
      ('\x60' ∈ body →
        stripColors (cheatsheet (fenced language body ending)) = fenced language body ending) := by
  have kept := visible_of_mem tagged ends clear unfenced bracket
  refine ⟨⟨fun rendered ticked => ?_, rendered_of_not_mem tagged ends clear bracket call⟩, kept⟩
  have unfenced := rendered.unfenced
  have occurs : occursIn fence (fenced language body ending) = true :=
    occursIn_iff.mpr ⟨[], language ++ '\n' :: (body ++ '\n' :: (fence ++ ending)), by simp [fenced]⟩
  rw [kept ticked, occurs] at unfenced
  exact absurd unfenced (by decide)

/-- A block with a comment, a string, an operator and a number. -/
def plainBlock : Text := "# Ratio\nx / 2 as \"half\"".toList

theorem cheatsheet_renders_iff_plainBlock :
    Rendered plainBlock (stripColors (cheatsheet (fenced "python".toList plainBlock []))) :=
  (cheatsheet_renders_iff _ _ _ (by decide) (Or.inl rfl) (by decide) (by decide) (by decide)
    (by decide)).1.mpr (by decide)

/-- A block that writes a string between backticks. -/
def tickedBlock : Text := "\x60a\x60".toList

/-- The string ends the block before its fence, so nothing is rendered. -/
theorem tickedBlock_unrendered :
    escape ∉ tickedBlock ∧ occursIn fence tickedBlock = false ∧ '[' ∉ tickedBlock ∧
      '(' ∉ tickedBlock ∧
      ¬ Rendered tickedBlock (stripColors (cheatsheet (fenced "python".toList tickedBlock []))) := by
  refine ⟨by decide, by decide, by decide, by decide, fun rendered => ?_⟩
  have fences : occursIn fence
      (stripColors (cheatsheet (fenced "python".toList tickedBlock []))) = true := by decide +kernel
  rw [rendered.unfenced] at fences
  exact absurd fences (by decide)

end Handbook.Colorize
