/-
**What stands outside of quotes, headers and addresses.**

Quoted spans, section headers and addresses are colored first. A quoted span is colored from mark to
mark, so a sequence always stands next to a quote mark; an address or a header that is found in the
colored text therefore shows an address or a header of the line itself. A stretch of a line that all
three leave alone stands in one piece behind the three passes.

* `quoted_beside`: behind the first pass every sequence stands next to a quote mark;
* `replaceAll_quoted`: a line that is no header is none behind the first pass;
* `lifts_url`: an address in the colored line shows one of the line;
* `holds_spans`: a stretch that quotes and addresses leave alone, in a line that is no header, is
  held.
-/

import Handbook.Proofs.Colorize.Standing

namespace Handbook.Colorize

open Terminal Pattern Text Unicode

/-! ### Quoted spans -/

/-- A line with its quoted spans in green. -/
def quoted (line : Text) : Text := Pattern.quote.replaceAll (whole .green) line

theorem shows_quoted {line : Text} (clear : escape ∉ line) : Shows (quoted line) line :=
  shows_replaceAll clear fun found absent => shows_colored .green found.lexeme absent

/-- **Behind the first pass every sequence stands next to a quote mark**: before one that begins a
span, or behind one that ends a span. -/
theorem quoted_beside {line first code rest : Text} (clear : escape ∉ line) (isCode : IsCode code)
    (cut : quoted line = first ++ (select code ++ rest)) :
    (∃ c ∈ rest.head?, isQuoteMark c = true) ∨ ∃ c ∈ first.getLast?, isQuoteMark c = true := by
  have steps := closed_quote.proper.scans none line
  rw [quoted, replaceAll, pieces] at cut
  generalize piecesFrom Pattern.quote none 0 line = pieces at steps cut
  generalize none = before at steps
  induction steps generalizing first with
  | nil => simp [select] at cut
  | @plain _ c others _ _ _ step =>
    rw [List.mem_cons, not_or] at clear
    cases first with
    | nil => exact absurd (List.cons.inj cut).1.symm clear.1
    | cons d more =>
      refine (step clear.2 (List.cons.inj cut).2).imp_right ?_
      rintro ⟨mark, last, isMark⟩
      exact ⟨mark, by simp [List.getLast?_cons, Option.mem_def.mp last], isMark⟩
  | @found _ lexeme groups others pieces _ found _ step =>
    rw [List.mem_append, not_or] at clear
    obtain ⟨mark, inside, _, isMark, _, _, same, size⟩ := reach?_quote found
    obtain ⟨rfl, _⟩ := occurrence_eq same size
    have cut : select Color.green.code ++ ((mark :: inside ++ [mark]) ++
        (reset ++ pieces.flatMap (Piece.replaced (whole .green)))) =
          first ++ (select code ++ rest) := by
      rw [← cut]
      simp [Piece.replaced, whole, colored, styled, Style.code]
    rcases exists_of_select (isCode_color .green) isCode clear.1 cut with
      ⟨-, rfl⟩ | ⟨between, rfl, behind⟩
    · exact Or.inl ⟨mark, rfl, isMark⟩
    · rcases @exists_of_select _ _ [] _ _ _ isCode_zero isCode List.not_mem_nil behind with
        ⟨rfl, -⟩ | ⟨between', rfl, later⟩
      · exact Or.inr ⟨mark, by simp [List.getLast?_cons], isMark⟩
      · refine (step clear.2 later).imp_right ?_
        rintro ⟨mark', last, isMark'⟩
        refine ⟨mark', ?_, isMark'⟩
        rw [Option.mem_def] at last ⊢
        simp [List.getLast?_cons, List.getLast?_append, last]

/-- What stands between characters that are no quote marks shows something. -/
theorem stripColors_ne_nil {line first stretch rest : Text} (clear : escape ∉ line)
    (cut : quoted line = first ++ (stretch ++ rest)) (intact : Intact stretch)
    (nonempty : stretch ≠ []) (before : ∀ c ∈ first.getLast?, isQuoteMark c = false)
    (behind : Stops isQuoteMark rest) : stripColors stretch ≠ [] := by
  induction intact using Intact.induction with
  | nil => exact absurd rfl nonempty
  | plain c others other _ _ =>
    rw [stripColors_cons other]
    exact List.cons_ne_nil _ _
  | sequence code others isCode _ _ =>
    rw [List.append_assoc] at cut
    rw [stripColors_append (intact_select isCode)]
    rcases quoted_beside clear isCode cut with ⟨mark, head, isMark⟩ | ⟨mark, last, isMark⟩
    · cases others with
      | nil => exact absurd (behind mark head) (by simp [isMark])
      | cons c tail =>
        rw [List.cons_append, List.head?_cons, Option.mem_some_iff] at head
        obtain ⟨_, other, _⟩ := isBlank_of_isQuoteMark isMark
        rw [head, stripColors_cons other]
        exact List.append_ne_nil_of_right_ne_nil _ (List.cons_ne_nil _ _)
    · exact absurd (before mark last) (by simp [isMark])

theorem holds_quoted {front piece back : Text} (clear : escape ∉ front ++ (piece ++ back))
    (clears : Pattern.quote.Clears (front ++ (piece ++ back)) front.length
      (front.length + piece.length)) :
    Holds (quoted (front ++ (piece ++ back))) front piece back := by
  obtain ⟨one, two, cut, rfl, rfl⟩ := clears.exists_pieces closed_quote.proper
  simp only [List.mem_append, not_or] at clear
  have each (found : Match) (absent : escape ∉ found.lexeme) :
      Shows (whole .green found) found.lexeme := shows_colored .green _ absent
  refine ⟨_, _, ?_, shows_pieces clear.1 each, shows_pieces clear.2.2 each⟩
  rw [quoted, replaceAll, cut, List.flatMap_append, List.flatMap_append, flatMap_replaced_plain]

/-! ### Headers -/

/-- A header of a single line is the whole line. -/
theorem eq_nil_of_sectionHeader {first text : Text} {reach : Reach} (single : '\n' ∉ first ++ text)
    (found : Pattern.sectionHeader.reach? (lastChar none first) text = some reach) :
    first = [] ∧ ∃ level title, 1 ≤ level ∧ level ≤ 3 ∧ title ≠ [] ∧
      text = List.replicate level '#' ++ ' ' :: title ∧ reach = ⟨text.length, []⟩ := by
  obtain ⟨starts, level, title, rest, low, high, nonempty, _, stops, rfl, size⟩ :=
    reach?_sectionHeader found
  rw [List.mem_append, List.mem_append, not_or, not_or] at single
  have start : first = [] := by
    rcases List.eq_nil_or_concat first with rfl | ⟨others, last, rfl⟩
    · rfl
    · simp only [startsLine, lastChar, List.concat_eq_append, List.getLast?_concat, Option.some_or,
        beq_iff_eq] at starts
      exact absurd (by simp [starts]) single.1
  have stop : rest = [] := by
    cases rest with
    | nil => rfl
    | cons c others =>
      have feed := stops c rfl
      simp only [bne_eq_false_iff_eq] at feed
      exact absurd (List.mem_cons.mpr (Or.inl feed.symm)) single.2.2
  rw [stop, List.append_nil]
  exact ⟨start, level, title, low, high, nonempty, rfl, size⟩

/-- **Where headers leave a stretch of a line alone, the line is none.** -/
theorem occurrences_sectionHeader {front piece back : Text}
    (single : '\n' ∉ front ++ (piece ++ back)) (nonempty : piece ≠ [])
    (clears : Pattern.sectionHeader.Clears (front ++ (piece ++ back)) front.length
      (front.length + piece.length)) :
    Pattern.sectionHeader.occurrences (front ++ (piece ++ back)) = [] := by
  refine List.eq_nil_iff_forall_not_mem.mpr fun located member => ?_
  obtain ⟨first, lexeme, rest, _, cut, found, start, stop⟩ :=
    aligned_sectionHeader.proper.exists_of_mem_occurrences member
  rw [cut] at single
  obtain ⟨rfl, _, _, _, _, _, _, size⟩ := eq_nil_of_sectionHeader single found
  have covered : lexeme.length = (lexeme ++ rest).length := congrArg Reach.size size
  have sizes := congrArg List.length cut
  have positive := List.length_pos_iff.mpr nonempty
  simp only [List.length_append, List.length_nil] at sizes covered start stop
  rcases clears located member with sooner | later <;> omega

/-- Behind the first pass, too, only a whole line is a header. -/
theorem replaceAll_quoted {line : Text} (clear : escape ∉ line) (single : '\n' ∉ line)
    (absent : Pattern.sectionHeader.occurrences line = []) :
    Pattern.sectionHeader.replaceAll (whole .yellow) (quoted line) = quoted line := by
  have shows := shows_quoted clear
  have single' : '\n' ∉ quoted line := shows.not_mem (by decide) (by decide) single
  refine replaceFrom_absent aligned_sectionHeader.proper fun first c rest cut => ?_
  cases found : Pattern.sectionHeader.reach? (lastChar none first) (c :: rest) with
  | none => rfl
  | some reach =>
    rw [cut] at single'
    obtain ⟨rfl, level, title, low, high, nonempty, header, _⟩ :=
      eq_nil_of_sectionHeader single' found
    have signs : escape ∉ List.replicate level '#' ++ [' '] := by simp [escape]
    have whole : quoted line = (List.replicate level '#' ++ [' ']) ++ (title ++ []) := by
      rw [cut, List.nil_append, header]
      simp
    have intact : Intact title := by
      have intact := shows.intact
      rw [whole, List.append_nil] at intact
      exact intact.of_append_right
    have shown : line = List.replicate level '#' ++ ' ' :: stripColors title := by
      rw [← shows.visible, whole, List.append_nil, stripColors_append (intact_of_not_mem signs),
        stripColors_of_not_mem signs, List.append_assoc, List.singleton_append]
    have visible : stripColors title ≠ [] :=
      stripColors_ne_nil clear whole intact nonempty (by simp [isQuoteMark]) (stops_nil _)
    have words : ∀ c ∈ stripColors title, c ≠ '\n' := by
      rintro c member rfl
      exact single (by rw [shown]; simp [member])
    have here := @sectionHeader_line none level _ [] rfl low high visible words (stops_nil _)
    rw [List.append_nil, ← shown] at here
    have listed : Pattern.sectionHeader.occurrences line ≠ [] := by
      have here : Pattern.sectionHeader.reach? none (line ++ []) = some ⟨line.length, []⟩ := by
        rwa [List.append_nil]
      have pieces := piecesFrom_found (by rw [shown]; simp) here
      rw [List.append_nil] at pieces
      rw [occurrences, Pattern.pieces, pieces]
      exact List.cons_ne_nil _ _
    exact absurd absent listed

/-! ### Addresses -/

/-- **An address in the colored line shows one of the line.** -/
theorem lifts_url {line : Text} (clear : escape ∉ line) : Lifts url (quoted line) line := by
  intro first lexeme rest groups cut found
  have shows := shows_quoted clear
  obtain ⟨scheme, address, _, isScheme, nonempty, visible, stops, same, size⟩ := reach?_url found
  obtain ⟨rfl, _⟩ := occurrence_eq same size
  obtain rfl := List.append_cancel_left same
  have intact := shows.intact
  rw [cut] at intact
  obtain ⟨one, two, _⟩ := intact_of_aligned aligned_url intact found
  have plain : ∀ scheme ∈ schemes, escape ∉ scheme ∧ scheme.getLast? = some '/' := by decide
  obtain ⟨bare, last⟩ := plain scheme isScheme
  rw [List.append_assoc] at two
  have middle : Intact address := two.of_append_right.of_stops (stops_isInner stops)
  have whole : quoted line = (first ++ scheme) ++ (address ++ rest) := by
    rw [cut, List.append_assoc, List.append_assoc]
  have ends : ∀ c ∈ (first ++ scheme).getLast?, isQuoteMark c = false := by
    rw [List.getLast?_append, last]
    rintro c same
    rw [← Option.some.inj same]
    decide
  have some_address : stripColors address ≠ [] := by
    refine stripColors_ne_nil clear whole middle nonempty ends fun c next => ?_
    have blank := stops c next
    rw [Bool.not_eq_false'] at blank
    cases isMark : isQuoteMark c with
    | false => rfl
    | true =>
      rw [(isBlank_of_isQuoteMark isMark).1] at blank
      exact absurd blank (by decide)
  have behind : Stops (!isBlank ·) (stripColors rest) := by
    cases rest with
    | nil => exact stops_nil _
    | cons c others =>
      have blank := stops c rfl
      have other : c ≠ escape := by
        rintro rfl
        exact absurd blank (by decide)
      rw [stripColors_cons other]
      intro d member
      exact stops d member
  have shown : stripColors (scheme ++ address) = scheme ++ stripColors address := by
    rw [stripColors_append (intact_of_not_mem bare), stripColors_of_not_mem bare]
  have covered : Intact (scheme ++ address) := (intact_of_not_mem bare).append middle
  have here := @url_address none scheme (stripColors address) (stripColors rest) isScheme
    some_address (fun c member => visible c (mem_of_mem_stripColors member)) behind
  have listed := @Steady.exists_located _ steady_url (stripColors first) _ _ _ here
  rw [← shown, ← stripColors_append covered, ← stripColors_append one, ← cut, shows.visible] at listed
  obtain ⟨located, member, start, stop⟩ := listed
  refine ⟨located, member, start, ?_⟩
  rwa [stripColors_append one, List.length_append]

/-! ### The three passes together -/

/-- **A stretch that quotes and addresses leave alone, in a line that is no header, is held.** -/
theorem holds_spans {front piece back : Text} (clear : escape ∉ front ++ (piece ++ back))
    (single : '\n' ∉ front ++ (piece ++ back)) (nonempty : piece ≠ [])
    (absent : Pattern.sectionHeader.occurrences (front ++ (piece ++ back)) = [])
    (clears : ∀ pattern ∈ [Pattern.quote, url],
      pattern.Clears (front ++ (piece ++ back)) front.length (front.length + piece.length)) :
    Holds (Pass.applyAll (prosePasses.take 3) (front ++ (piece ++ back))) front piece back := by
  have bare : escape ∉ piece := fun member =>
    clear (List.mem_append_right _ (List.mem_append_left _ member))
  have recolors : Recolors ⟨"url", .url, whole .blue⟩ := recolors_whole .blue aligned_url
  have passes : Pass.applyAll (prosePasses.take 3) (front ++ (piece ++ back)) =
      url.replaceAll (whole .blue) (Pattern.sectionHeader.replaceAll (whole .yellow)
        (quoted (front ++ (piece ++ back)))) := rfl
  rw [passes, replaceAll_quoted clear single absent]
  exact (holds_quoted clear (clears _ (by simp))).keep recolors steady_url nonempty bare
    (lifts_url clear) (clears _ (by simp))

end Handbook.Colorize
