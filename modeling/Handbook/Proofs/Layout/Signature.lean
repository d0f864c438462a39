/-
**Entries on the terminal, line by line.**

Without its colors an entry is a line for each way to call it, then its help text, then a blank line.
The lines of the calls stand behind the margin of the list and begin with a hyphen. The help text is
wrapped and has a margin of its own behind that one, so its lines are eight columns wider than prose
at most; and blanks are all that wrapping and margins take away or put in.

* `signatureLines`: the lines of the calls, in their order;
* `fits_wrap`, `Fits.indent`: how wide wrapped prose is, and what a margin adds;
* `fits_helpBlock`, `withoutBlanks_helpBlock`: the help text of an entry;
* `indent_terminalText`: an entry with the margin of the list;
* `entries_line_by_line`: entries in color, without their colors.
-/

import Handbook.Proofs.Layout.Entry
import Handbook.Proofs.Text.Fill

namespace Handbook

open Terminal Text

/-! ### Wrapped and indented prose -/

/-- The lines of a text have at most so many columns and, unless they are blank, so many spaces in
front. -/
def Fits (columns spaces : Nat) (text : Text) : Prop :=
  ∀ line ∈ bareLines text,
    line.length ≤ columns ∧ (isBlankText line = false → List.replicate spaces ' ' <+: line)

/-- The lines of wrapped prose are no wider than its column. -/
theorem fits_wrap (width : Width) (text : Text) : Fits width.columns 0 (wrap width text) := by
  intro line member
  obtain ⟨whole, found, inside⟩ := exists_split_of_mem_bareLines member
  rw [split_wrap] at found
  obtain ⟨piece, -, filled⟩ := List.mem_flatMap.mp found
  exact ⟨Nat.le_trans inside.length_le (length_le_of_mem_brokenLine filled),
    fun _ => List.nil_prefix⟩

/-- **A margin takes four columns more, and is in front of every line that is not blank.** -/
theorem Fits.indent {columns spaces : Nat} {text : Text} (fits : Fits columns spaces text) :
    Fits (columns + 4) (spaces + 4) (indent text) := by
  have margined : List.replicate (spaces + 4) ' ' = margin ++ List.replicate spaces ' ' := by
    rw [Nat.add_comm, List.replicate_add]
    rfl
  have four : margin.length = 4 := rfl
  intro line member
  rcases mem_bareLines_indent member with ⟨blank, listed⟩ | ⟨words, listed, rfl⟩
  · obtain ⟨short, -⟩ := fits line listed
    refine ⟨by omega, fun visible => ?_⟩
    rw [blank] at visible
    exact absurd visible (by decide)
  · obtain ⟨short, front⟩ := fits words listed
    refine ⟨by rw [List.length_append]; omega, fun visible => ?_⟩
    rw [isBlankText_margin_append] at visible
    rw [margined]
    exact (List.prefix_append_right_inj _).mpr (front visible)

/-- Margins are blank. -/
theorem withoutBlanks_indent (text : Text) : withoutBlanks (indent text) = withoutBlanks text := by
  induction text using induction_firstLine with
  | nil => rfl
  | next line rest first step =>
    rw [indent_firstLine first, withoutBlanks_append, withoutBlanks_append, step]
    unfold indentLine
    split
    · rfl
    · rw [withoutBlanks_append, withoutBlanks_eq_nil_iff.mpr (by decide), List.nil_append]

namespace Entry

/-! ### Calls -/

/-- The arguments of a call, in parentheses if they are listed. -/
def shownArguments : Option (List Text) → Text
  | none => []
  | some arguments => ['('] ++ commaSpace.intercalate arguments ++ [')']

/-- The line of one way to call an entry. -/
def signatureLine (entry : Entry) (name : Text) (arguments : Option (List Text)) : Text :=
  margin ++ ("- ".toList ++ name ++ shownArguments arguments ++ " -> ".toList ++ entry.returns)

/-- The lines of the calls of an entry: the main one, one for each alias with the main arguments, and
one for each alternative under the main name. -/
def signatureLines (entry : Entry) : List Text :=
  [entry.signatureLine entry.name entry.arguments]
    ++ (entry.aliases.getD []).map (fun other => entry.signatureLine other entry.arguments)
    ++ (entry.alternatives.getD []).map fun arguments =>
      entry.signatureLine entry.name (some arguments)

theorem signatureLines_eq (entry : Entry) :
    entry.signatureLines =
      entry.callForms.map fun (name, arguments) => entry.signatureLine name arguments := by
  simp only [signatureLines, callForms, List.map_append, List.map_map, List.map_singleton]
  rfl

theorem length_signatureLines (entry : Entry) :
    entry.signatureLines.length =
      1 + (entry.aliases.getD []).length + (entry.alternatives.getD []).length := by
  rw [signatureLines_eq, List.length_map, length_callForms]

theorem callText_plain (arguments : Option (List Text)) :
    callText .plain arguments = shownArguments arguments := by
  cases arguments with
  | none => rfl
  | some arguments => rw [callText, arguments_plain, shownArguments]

/-- The line of a call is its signature behind the margin. -/
theorem signatureLine_eq (entry : Entry) (name : Text) (arguments : Option (List Text)) :
    entry.signatureLine name arguments = margin ++ ("- ".toList ++ name ++ callText .plain arguments
      ++ " -> ".toList ++ entry.returns) := by
  rw [callText_plain, signatureLine]

theorem isLineBreak_of_mem_signatureLines {entry : Entry} (oneLine : entry.OneLine) {line : Text}
    (member : line ∈ entry.signatureLines) : ∀ c ∈ line, isLineBreak c = false := by
  rw [signatureLines_eq] at member
  obtain ⟨⟨name, arguments⟩, form, rfl⟩ := List.mem_map.mp member
  dsimp only
  rw [signatureLine_eq]
  exact isLineBreak_margin_append (isLineBreak_signature oneLine form)

theorem prefix_of_mem_signatureLines {entry : Entry} {line : Text}
    (member : line ∈ entry.signatureLines) : "    - ".toList <+: line := by
  rw [signatureLines_eq] at member
  obtain ⟨⟨name, arguments⟩, -, rfl⟩ := List.mem_map.mp member
  have mark : "    - ".toList <+: margin ++ "- ".toList := by decide
  have whole : entry.signatureLine name arguments = margin ++ "- ".toList ++
      (name ++ (shownArguments arguments ++ (" -> ".toList ++ entry.returns))) := by
    simp only [signatureLine, List.append_assoc]
  dsimp only
  rw [whole]
  exact mark.trans (List.prefix_append _ _)

/-- The calls of an entry, with the margin of the list. -/
theorem indent_signatures {entry : Entry} (oneLine : entry.OneLine) (rest : Text) :
    indent (entry.callForms.flatMap (fun (name, arguments) =>
        entry.signatureText .plain name arguments) ++ rest) =
      (entry.signatureLines.flatMap fun line => line ++ ['\n']) ++ indent rest := by
  let words := entry.callForms.map fun (name, arguments) =>
    "- ".toList ++ name ++ callText .plain arguments ++ " -> ".toList ++ entry.returns
  have inside : ∀ line ∈ words, ∀ c ∈ line, isLineBreak c = false := by
    intro line member
    obtain ⟨form, found, rfl⟩ := List.mem_map.mp member
    exact isLineBreak_signature oneLine found
  have signatures : entry.callForms.flatMap (fun (name, arguments) =>
      entry.signatureText .plain name arguments) = words.flatMap fun line => line ++ ['\n'] := by
    rw [List.flatMap_map]
    exact List.flatMap_congr fun form _ => signatureText_eq .plain entry form.1 form.2
  have margined : words.flatMap (fun line => indentLine line ++ ['\n']) =
      entry.signatureLines.flatMap fun line => line ++ ['\n'] := by
    rw [signatureLines_eq, List.flatMap_map, List.flatMap_map]
    refine List.flatMap_congr fun ⟨name, arguments⟩ _ => congrArg (· ++ ['\n']) ?_
    dsimp only
    rw [signatureLine_eq]
    exact if_neg Bool.false_ne_true
  rw [signatures, indent_ended inside, margined]

/-! ### Help texts -/

/-- The help text of an entry, wrapped, behind its own margin and that of the list. -/
def helpBlock (entry : Entry) : Text := indent (indent (wrap .prose entry.help))

theorem fits_helpBlock (entry : Entry) : Fits 89 8 entry.helpBlock :=
  (fits_wrap .prose entry.help).indent.indent

theorem withoutBlanks_helpBlock (entry : Entry) :
    withoutBlanks entry.helpBlock = withoutBlanks entry.help := by
  rw [helpBlock, withoutBlanks_indent, withoutBlanks_indent, withoutBlanks_wrap]

/-! ### Entries -/

/-- **An entry with the margin of the list.** -/
theorem indent_terminalText {entry : Entry} (oneLine : entry.OneLine) :
    indent (entry.terminalText .plain) =
      (entry.signatureLines.flatMap fun line => line ++ ['\n']) ++ entry.helpBlock
        ++ "\n\n".toList := by
  have help : indent (entry.helpText .plain ++ "\n\n".toList) = entry.helpBlock ++ "\n\n".toList :=
    linewise_indent.append_lineFeed (entry.helpText .plain) ['\n']
  rw [terminalText, List.append_assoc, indent_signatures oneLine, help, List.append_assoc]

end Entry

/-- **Entries in color, without their colors.** Each entry is the lines of its calls, the main one,
those of the aliases and those of the alternatives; then the lines of its help text; then a blank
line. The lines of the calls begin with a hyphen behind four spaces. Those of the help text have at
most 89 characters and eight spaces in front, and hold what is not blank in it. -/
theorem entries_line_by_line {entries : List Entry} (clear : Clear (entries.flatMap Entry.texts))
    (oneLine : ∀ entry ∈ entries, entry.OneLine) :
    stripColors (entriesText .colored entries) = entries.flatMap (fun entry =>
      (entry.signatureLines.flatMap fun line => line ++ ['\n']) ++ entry.helpBlock
        ++ "\n\n".toList) ∧
    ∀ entry ∈ entries,
      entry.signatureLines.length =
        1 + (entry.aliases.getD []).length + (entry.alternatives.getD []).length ∧
      (∀ line ∈ entry.signatureLines,
        "    - ".toList <+: line ∧ ∀ c ∈ line, isLineBreak c = false) ∧
      (∀ line ∈ bareLines entry.helpBlock,
        line.length ≤ 89 ∧ (isBlankText line = false → List.replicate 8 ' ' <+: line)) ∧
      withoutBlanks entry.helpBlock = withoutBlanks entry.help := by
  constructor
  · rw [(shows_entries clear oneLine).visible, entriesText]
    exact List.flatMap_congr fun entry member => Entry.indent_terminalText (oneLine entry member)
  · intro entry member
    exact ⟨entry.length_signatureLines, fun line listed =>
      ⟨Entry.prefix_of_mem_signatureLines listed,
        Entry.isLineBreak_of_mem_signatureLines (oneLine entry member) listed⟩,
      entry.fits_helpBlock, entry.withoutBlanks_helpBlock⟩

/-- An entry with an alias and an alternative without arguments, and a help text with a quotation over
a line separator, a blank line and a flag. -/
def separatedEntry : Entry :=
  ⟨"f".toList, some ["<x>".toList, "y".toList], "T".toList,
    "Use \"a\u2028b\" now.\n \n--x".toList, some ["g".toList], some [[]]⟩

theorem entries_line_by_line_separatedEntry :
    Clear ([separatedEntry].flatMap Entry.texts) ∧ (∀ entry ∈ [separatedEntry], entry.OneLine) ∧
      stripColors (entriesText .colored [separatedEntry]) =
        ("    - f(<x>, y) -> T\n    - g(<x>, y) -> T\n    - f() -> T\n" ++
          "        Use \"a\u2028        b\" now.\n\n        --x\n\n").toList := by
  have clear : Clear ([separatedEntry].flatMap Entry.texts) := by decide
  have oneLine : ∀ entry ∈ [separatedEntry], entry.OneLine := by decide
  refine ⟨clear, oneLine, (entries_line_by_line clear oneLine).1.trans ?_⟩
  decide +kernel

end Handbook
