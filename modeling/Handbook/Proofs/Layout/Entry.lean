/-
**Entries in color show the plain entries.**

The colors of an entry are put on before the entry gets its margin, and whether a line gets one
depends on its being blank. So it takes more than equal visible characters: the colors of an entry
have to be moored. In the signatures they are, since a signature begins with a hyphen and ends on
the same line; in the help text they are, since it has a margin of its own by then.

* `dressed_signature`, `dressed_help`: the parts of an entry;
* `Dressed.indent`: what is dressed shows the plain layout with a margin, too;
* `shows_entries`: entries in color show the plain entries.
-/

import Handbook.Layout.Entry
import Handbook.Proofs.Colorize.Moored
import Handbook.Proofs.Text.Wrap

namespace Handbook

open Terminal Colorize Text

/-! ### The texts of an entry -/

/-- The texts that stand in the signatures of an entry. -/
def Entry.signatureTexts (entry : Entry) : List Text :=
  entry.names ++ entry.arguments.getD [] ++ (entry.alternatives.getD []).flatten ++ [entry.returns]

/-- All texts of an entry. -/
def Entry.texts (entry : Entry) : List Text := entry.help :: entry.signatureTexts

/-- An entry whose signatures keep to one line each. -/
def Entry.OneLine (entry : Entry) : Prop :=
  ∀ text ∈ entry.signatureTexts, ∀ c ∈ text, isLineBreak c = false

instance (entry : Entry) : Decidable entry.OneLine :=
  decidable_of_iff (entry.signatureTexts.all fun text => !text.any isLineBreak) <| by
    simp [Entry.OneLine]

/-- Texts without escape characters. -/
def Clear (texts : List Text) : Prop := ∀ text ∈ texts, escape ∉ text

instance (texts : List Text) : Decidable (Clear texts) :=
  inferInstanceAs (Decidable (∀ text ∈ texts, escape ∉ text))

theorem Clear.of_flatMap {Part : Type} {texts : Part → List Text} {parts : List Part}
    (clear : Clear (parts.flatMap texts)) {part : Part} (member : part ∈ parts) :
    Clear (texts part) := fun text inside =>
  clear text (List.mem_flatMap.mpr ⟨part, member, inside⟩)

theorem clear_wrap {width : Width} {text : Text} (clear : escape ∉ text) :
    escape ∉ wrap width text := fun member => by
  rcases mem_of_mem_wrap member with inside | space | feed
  · exact clear inside
  · exact absurd space (by decide)
  · exact absurd feed (by decide)

theorem clear_indent {text : Text} (clear : escape ∉ text) : escape ∉ indent text :=
  fun member => (mem_of_mem_indent member).elim clear (by decide)

theorem clear_intercalate {separator : Text} {parts : List Text} (between : escape ∉ separator)
    (clear : Clear parts) : escape ∉ separator.intercalate parts := fun member =>
  (mem_of_mem_intercalate member).elim between fun ⟨part, found, inside⟩ => clear part found inside

/-- The name and the arguments of a call form are texts of the signatures. -/
theorem Entry.mem_signatureTexts {entry : Entry} {name : Text} {arguments : Option (List Text)}
    (form : (name, arguments) ∈ entry.callForms) :
    name ∈ entry.signatureTexts ∧ arguments.getD [] ⊆ entry.signatureTexts := by
  simp only [callForms, List.mem_append, List.mem_singleton, List.mem_map, Prod.mk.injEq] at form
  simp only [signatureTexts, names, List.cons_append]
  rcases form with (⟨rfl, rfl⟩ | ⟨other, member, rfl, rfl⟩) | ⟨listed, member, rfl, rfl⟩
  · exact ⟨List.mem_cons_self .., fun text inside => by simp [inside]⟩
  · exact ⟨by simp [member], fun text inside => by simp [inside]⟩
  · refine ⟨List.mem_cons_self .., fun text inside => ?_⟩
    have listed : text ∈ (entry.alternatives.getD []).flatten :=
      List.mem_flatten.mpr ⟨listed, member, inside⟩
    simp [listed]

/-- Colored prose shows the prose. -/
theorem shows_prose {text : Text} (clear : escape ∉ text) : Shows (prose text) text :=
  (shows_plain text clear).applyAll recolors_of_mem

/-! ### Dressed texts -/

/-- A colored text that shows a plain one, also behind a margin. -/
structure Dressed (painted bare : Text) : Prop where
  shows : Shows painted bare
  moored : Moored painted

theorem dressed_plain {text : Text} (clear : escape ∉ text) : Dressed text text :=
  ⟨shows_plain text clear, moored_of_not_mem clear⟩

/-- The colors of one line that is not blank are moored. -/
theorem dressed_line {painted bare : Text} (shows : Shows painted bare)
    (inside : ∀ c ∈ bare, isLineBreak c = false) (lit : isBlankText bare = false) :
    Dressed painted bare where
  shows := shows
  moored := by
    rw [← shows.visible] at inside lit
    exact moored_of_line shows.intact inside (Or.inr lit)

theorem Dressed.append {painted painted' bare bare' : Text} (one : Dressed painted bare)
    (two : Dressed painted' bare') : Dressed (painted ++ painted') (bare ++ bare') :=
  ⟨one.shows.append two.shows, one.moored.append two.moored⟩

theorem Dressed.flatMap {Part : Type} {painted bare : Part → Text} {parts : List Part}
    (each : ∀ part ∈ parts, Dressed (painted part) (bare part)) :
    Dressed (parts.flatMap painted) (parts.flatMap bare) := by
  induction parts with
  | nil => exact dressed_plain List.not_mem_nil
  | cons part others step =>
    rw [List.flatMap_cons, List.flatMap_cons]
    exact (each part (List.mem_cons_self ..)).append
      (step fun other member => each other (List.mem_cons_of_mem _ member))

/-- **With a margin a dressed text shows the plain text with a margin.** -/
theorem Dressed.indent {painted bare : Text} (dressed : Dressed painted bare) :
    Shows (Text.indent painted) (Text.indent bare) where
  intact := (frays_indent (.of_intact dressed.shows.intact)).intact.mpr dressed.shows.intact
  visible := by rw [dressed.moored.stripColors_indent, dressed.shows.visible]

/-! ### Signatures -/

theorem shows_argument {argument : Text} (clear : escape ∉ argument) :
    Shows (Ink.colored.argument argument) (Ink.plain.argument argument) := by
  have bare : Ink.plain.argument argument = argument := ite_self _
  rw [bare, Ink.argument]
  split
  · exact shows_styled .dim argument clear
  · exact shows_colored .red argument clear

theorem shows_arguments {arguments : List Text} (clear : Clear arguments) :
    Shows (Ink.colored.arguments arguments) (Ink.plain.arguments arguments) :=
  .intercalate (by decide) fun argument member => shows_argument (clear argument member)

theorem arguments_plain (arguments : List Text) :
    Ink.plain.arguments arguments = commaSpace.intercalate arguments := by
  have bare : Ink.plain.argument = id := funext fun argument => ite_self _
  rw [Ink.arguments, bare, List.map_id]

namespace Entry

/-- The list of arguments in a signature, in parentheses if there is one. -/
def callText (ink : Ink) : Option (List Text) → Text
  | none => []
  | some arguments => ['('] ++ ink.arguments arguments ++ [')']

theorem signatureText_eq (ink : Ink) (entry : Entry) (name : Text)
    (arguments : Option (List Text)) :
    entry.signatureText ink name arguments =
      "- ".toList ++ ink.color .cyan name ++ callText ink arguments ++ " -> ".toList
        ++ ink.color .magenta entry.returns ++ ['\n'] := by
  cases arguments <;> rfl

theorem shows_callText {arguments : Option (List Text)} (clear : Clear (arguments.getD [])) :
    Shows (callText .colored arguments) (callText .plain arguments) := by
  cases arguments with
  | none => exact shows_nil
  | some arguments =>
    exact ((shows_plain ['('] (by decide)).append (shows_arguments clear)).append
      (shows_plain [')'] (by decide))

theorem mem_callText {arguments : Option (List Text)} {c : Char}
    (member : c ∈ callText .plain arguments) :
    c ∈ ['(', ',', ' ', ')'] ∨ ∃ argument ∈ arguments.getD [], c ∈ argument := by
  cases arguments with
  | none => exact absurd member List.not_mem_nil
  | some arguments =>
    rw [callText, arguments_plain, List.mem_append, List.mem_append] at member
    rcases member with (opening | inside) | closing
    · exact Or.inl (by simp_all)
    · rcases mem_of_mem_intercalate inside with between | standing
      · have each : commaSpace ⊆ ['(', ',', ' ', ')'] := by decide
        exact Or.inl (each between)
      · exact Or.inr standing
    · exact Or.inl (by simp_all)

/-- A signature stands on one line. -/
theorem isLineBreak_signature {entry : Entry} (oneLine : entry.OneLine) {name : Text}
    {arguments : Option (List Text)} (form : (name, arguments) ∈ entry.callForms) :
    ∀ c ∈ "- ".toList ++ name ++ callText .plain arguments ++ " -> ".toList ++ entry.returns,
      isLineBreak c = false := by
  obtain ⟨named, listed⟩ := mem_signatureTexts form
  have returned : entry.returns ∈ entry.signatureTexts := by simp [signatureTexts]
  intro c member
  simp only [List.mem_append] at member
  rcases member with (((hyphen | inName) | inCall) | arrow) | inReturns
  · have each : ∀ c ∈ "- ".toList, isLineBreak c = false := List.all_iff_forall_prop.mp (by decide)
    exact each c hyphen
  · exact oneLine name named c inName
  · rcases mem_callText inCall with mark | ⟨argument, found, inside⟩
    · have each : ∀ c ∈ ['(', ',', ' ', ')'], isLineBreak c = false :=
        List.all_iff_forall_prop.mp (by decide)
      exact each c mark
    · exact oneLine argument (listed found) c inside
  · have each : ∀ c ∈ " -> ".toList, isLineBreak c = false := List.all_iff_forall_prop.mp (by decide)
    exact each c arrow
  · exact oneLine entry.returns returned c inReturns

/-- **A signature is dressed**, since it has a hyphen and stands on one line. -/
theorem dressed_signature {entry : Entry} (clear : Clear entry.signatureTexts)
    (oneLine : entry.OneLine) {name : Text} {arguments : Option (List Text)}
    (form : (name, arguments) ∈ entry.callForms) :
    Dressed (entry.signatureText .colored name arguments)
      (entry.signatureText .plain name arguments) := by
  obtain ⟨named, listed⟩ := mem_signatureTexts form
  have returned : entry.returns ∈ entry.signatureTexts := by simp [signatureTexts]
  have shows := ((((shows_plain "- ".toList (by decide)).append
    (shows_colored .cyan name (clear name named))).append
    (shows_callText fun argument member => clear argument (listed member))).append
    (shows_plain " -> ".toList (by decide))).append
    (shows_colored .magenta entry.returns (clear _ returned))
  rw [signatureText_eq, signatureText_eq, Ink.colored_color, Ink.colored_color, Ink.plain_color,
    Ink.plain_color]
  exact (dressed_line shows (isLineBreak_signature oneLine form) rfl).append
    (dressed_plain (by decide))

/-! ### Entries -/

/-- **A help text is dressed**, since it has a margin. -/
theorem dressed_help {entry : Entry} (clear : escape ∉ entry.help) :
    Dressed (entry.helpText .colored) (entry.helpText .plain) := by
  have margined : escape ∉ indent (wrap .prose entry.help) := clear_indent (clear_wrap clear)
  rw [helpText, helpText, Ink.colored_prose, Ink.plain_prose]
  exact ⟨shows_prose margined, moored_prose margined (margined_indent _)⟩

theorem dressed {entry : Entry} (clear : Clear entry.texts) (oneLine : entry.OneLine) :
    Dressed (entry.terminalText .colored) (entry.terminalText .plain) := by
  have signatures : Clear entry.signatureTexts := fun text member =>
    clear text (List.mem_cons_of_mem _ member)
  refine Dressed.append (.append (.flatMap fun form member => ?_) ?_) (dressed_plain (by decide))
  · exact dressed_signature signatures oneLine member
  · exact dressed_help (clear _ (List.mem_cons_self ..))

end Entry

/-- **Entries in color show the plain entries.** -/
theorem shows_entries {entries : List Entry} (clear : Clear (entries.flatMap Entry.texts))
    (oneLine : ∀ entry ∈ entries, entry.OneLine) :
    Shows (entriesText .colored entries) (entriesText .plain entries) :=
  .flatMap fun entry member =>
    (Entry.dressed (clear.of_flatMap member) (oneLine entry member)).indent

end Handbook
