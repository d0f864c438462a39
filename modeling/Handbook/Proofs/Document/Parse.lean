/-
**Parsing is exact.**

A document is parsed from a blob exactly if the blob writes a value of its shape, and nothing of the
value is lost: the document is written as the value completed. So it does not matter in which of
their many spellings documents are given.

* `parse_eq_ok_iff`: which blobs are parsed as a document;
* `parse_exact`: which blobs are parsed, and what the document keeps of them;
* `parse_of_spelling`: every spelling of a document is parsed as it.
-/

import Handbook.Document.Parse
import Handbook.Proofs.Document.Format
import Handbook.Proofs.Json.Reader

namespace Handbook

open Json Schema

/-- A blob is parsed as a document exactly if it writes a value of the shape that the document is
written as, once the value is completed. -/
theorem parse_eq_ok_iff {kind : Kind} {blob : Bytes} {document : kind.Document} :
    parse kind blob = .ok document ↔ ∃ value, Writes nestingLimit blob value ∧
      kind.shape.Conforms value ∧ kind.toValue document = kind.shape.completed value := by
  have represents := document_represents kind
  unfold parse parseTelling
  constructor
  · intro parsed
    split at parsed
    · simp at parsed
    · rename_i value found
      split at parsed
      · rename_i clean read
        rw [Except.ok.injEq] at parsed
        subst parsed
        have conforms := (kind.shape.faults_eq_nil_iff value).mp clean
        obtain ⟨thing, same, written⟩ := represents.reads conforms
        rw [read, Option.some.injEq] at same
        subst same
        exact ⟨value, read_eq_ok_iff.mp found, conforms, written⟩
      · simp at parsed
  · rintro ⟨value, writes, conforms, written⟩
    obtain ⟨thing, read, written'⟩ := represents.reads conforms
    have same : thing = document := represents.injective (written'.trans written.symm)
    rw [read_eq_ok_iff.mpr writes]
    simp only [(kind.shape.faults_eq_nil_iff value).mpr conforms, read, same]

/-- A failure to parse tells the kind of the document. -/
theorem parse_eq_error {kind : Kind} {blob : Bytes} {cause : Failure}
    (failed : parse kind blob = .error cause) :
    ∃ reports, cause = .malformed kind.name reports := by
  unfold parse parseTelling at failed
  split at failed
  · exact ⟨_, (Except.error.inj failed).symm⟩
  · split at failed
    · cases failed
    · exact ⟨_, (Except.error.inj failed).symm⟩

/-- A blob that writes a value without faults is parsed as the document that is written so. -/
theorem parse_of_writes {kind : Kind} {blob : Bytes} {value : Value}
    {document : kind.Document} (writes : Writes nestingLimit blob value)
    (clean : kind.shape.faults .customary value = [])
    (written : kind.toValue document = kind.shape.completed value) :
    parse kind blob = .ok document :=
  parse_eq_ok_iff.mpr ⟨value, writes, (kind.shape.faults_eq_nil_iff value).mp clean, written⟩

/-- **A blob is parsed exactly if it writes a value of the shape of its kind**, and then the document
is written as that value, with null for the fields that it lacks. -/
theorem parse_exact (kind : Kind) (blob : Bytes) :
    ((∃ document, parse kind blob = .ok document) ↔
      ∃ value, Writes nestingLimit blob value ∧ kind.shape.Conforms value) ∧
    ∀ document value, parse kind blob = .ok document → Writes nestingLimit blob value →
      kind.toValue document = kind.shape.completed value := by
  refine ⟨⟨?_, ?_⟩, ?_⟩
  · rintro ⟨document, parsed⟩
    obtain ⟨value, writes, conforms, _⟩ := parse_eq_ok_iff.mp parsed
    exact ⟨value, writes, conforms⟩
  · rintro ⟨value, writes, conforms⟩
    obtain ⟨document, _, written⟩ := (document_represents kind).reads conforms
    exact ⟨document, parse_eq_ok_iff.mpr ⟨value, writes, conforms, written⟩⟩
  · intro document value parsed writes
    obtain ⟨value', writes', _, written⟩ := parse_eq_ok_iff.mp parsed
    have same := (read_eq_ok_iff.mpr writes').symm.trans (read_eq_ok_iff.mpr writes)
    rw [written, Except.ok.inj same]

/-- A group of operators with two titles. -/
def retitled : Bytes :=
  Utf8.encode "[\x7b\"title\":\"a\",\"title\":\"b\",\"examples\":[]\x7d]".toList

/-- The value with two titles. -/
def retitledValue : Value := .array [.object [("title".toList, .string "a".toList),
  ("title".toList, .string "b".toList), ("examples".toList, .array [])]]

/-- The second title counts, and the prelude is null. -/
theorem parse_exact_retitled : ∃ document, parse .operators retitled = .ok document ∧
    Kind.toValue .operators document = .array [.object [("title".toList, .string "b".toList),
      ("prelude".toList, .null), ("examples".toList, .array [])]] := by
  have title : ∀ text : Text, (text.all fun c => 0x20 ≤ c.toNat && c != '"' && c != '\\') →
      SpellsMember (Spells 198) ("title".toList, .string text) _ := fun text plain =>
    .member (SpellsText.plain (by decide)) .nil .nil (.string (SpellsText.plain plain))
  have examples : SpellsMember (Spells 198) ("examples".toList, .array []) _ :=
    .member (SpellsText.plain (by decide)) .nil .nil (.emptyArray .nil)
  have group : Spells 199 (.object [_, _, _]) _ := .object .nil <|
    .next (title "a".toList (by decide)) .nil .nil <|
      .next (title "b".toList (by decide)) .nil .nil <| .last examples .nil
  have writes : Writes nestingLimit retitled retitledValue :=
    ⟨[], _, [], .nil, .array .nil (.last group .nil), .nil, by decide⟩
  have clean : (Kind.shape .operators).faults .customary retitledValue = [] := by decide
  have conforms := (Shape.faults_eq_nil_iff _ _).mp clean
  obtain ⟨document, parsed⟩ := (parse_exact .operators retitled).1.mpr ⟨_, writes, conforms⟩
  exact ⟨document, parsed, (parse_exact .operators retitled).2 _ _ parsed writes⟩

/-- **Every spelling of a document is parsed as it**: with blanks between the tokens, the members of
its objects in any order, the characters of its strings plain or escaped, and the fields that it
lacks null or left out. -/
theorem parse_of_spelling {kind : Kind} {document : kind.Document} {value : Value} {levels : Nat}
    {blob : Bytes} (restates : Restates (kind.toValue document) value)
    (writes : Writes levels blob value) : parse kind blob = .ok document := by
  have dumped := (document_represents kind).dumped document
  obtain ⟨conforms, completed⟩ :=
    kind.shape.dumped_restates (shape_distinct kind) dumped restates
  have shallow : Within nestingLimit value :=
    (restates.within (kind.shape.dumped_within dumped)).mono (shape_depth_le kind)
  obtain ⟨before, spelled, after, blank, spells, blank', rfl⟩ := writes
  exact parse_eq_ok_iff.mpr ⟨value,
    ⟨before, spelled, after, blank, spells.within shallow, blank', rfl⟩, conforms, completed.symm⟩

/-- A group of operators whose title comes last and has an escape of two code units. -/
def grinning : Bytes :=
  Utf8.encode "[\x7b\"examples\": [], \"title\":\"\\ud83d\\ude00!\"\x7d]".toList

theorem parse_of_spelling_grinning :
    parse .operators grinning = .ok [⟨"😀!".toList, none, []⟩] := by
  have keeps : Keeps Restates [("title".toList, .string "😀!".toList), ("prelude".toList, .null),
      ("examples".toList, .array [])]
      [("title".toList, .string "😀!".toList), ("examples".toList, .array [])] :=
    .keep (.refl _) (.drop (.keep (.refl _) .nil))
  have restates : Restates (Kind.toValue .operators [⟨"😀!".toList, none, []⟩]) (.array [.object
      [("examples".toList, .array []), ("title".toList, .string "😀!".toList)]]) :=
    .array (.cons (.object keeps (.swap ..)) .nil)
  have high : SpellsUnit 0xD83D [0x64, 0x38, 0x33, 0x64] :=
    .digits (a := 13) (b := 8) (c := 3) (d := 13) rfl rfl rfl rfl
  have low : SpellsUnit 0xDE00 [0x64, 0x65, 0x30, 0x30] :=
    .digits (a := 13) (b := 14) (c := 0) (d := 0) rfl rfl rfl rfl
  have same : Char.ofNat (0x10000 + (0xD83D - 0xD800) * 0x400 + (0xDE00 - 0xDC00)) = '😀' := by
    decide
  have escapes := Escapes.pair high (by decide) low (by decide)
  rw [same] at escapes
  have text : SpellsText "😀!".toList _ := .cons (.escaped escapes) (SpellsText.plain (by decide))
  have space : Blank [0x20] := List.forall_mem_singleton.mpr rfl
  have title : SpellsMember (Spells 1) ("title".toList, .string "😀!".toList) _ :=
    .member (SpellsText.plain (by decide)) .nil .nil (.string text)
  have examples : SpellsMember (Spells 1) ("examples".toList, .array []) _ :=
    .member (SpellsText.plain (by decide)) .nil space (.emptyArray .nil)
  have group : Spells 2 (.object [_, _]) _ :=
    .object .nil (.next examples .nil space (.last title .nil))
  have writes : Writes 3 grinning (.array [_]) :=
    ⟨[], _, [], .nil, .array .nil (.last group .nil), .nil, by decide⟩
  exact parse_of_spelling restates writes

end Handbook
