/-
**The raw format.**

Raw, a topic is given as the bytes of its document are, and only bytes that are no UTF-8 are refused.
What can be parsed is UTF-8, so whatever is laid out in the other formats is also to be had raw.

* `decodeRaw_exact`: which bytes are given, and what is told about the others;
* `raw_agrees`: the raw format gives the document that the other formats lay out.
-/

import Handbook.Proofs.Document.Parse
import Handbook.Proofs.Json.WellFormed
import Handbook.Proofs.Render.Reference
import Mathlib.Order.Bounds.Basic

namespace Handbook

variable {topic : Topic} {kind : Kind} {file : Text} {library : Library}

theorem Topic.decodeRaw_eq (stored : topic.document? = some (kind, file)) (blob : Bytes) :
    topic.decodeRaw blob =
      (Utf8.decode blob).mapError fun fault => .malformed kind.name [utf8Report fault] := by
  rw [decodeRaw, stored]

theorem Topic.decodeRaw_eq_ok_iff (stored : topic.document? = some (kind, file)) {blob : Bytes}
    {text : Text} : topic.decodeRaw blob = .ok text ↔ blob = Utf8.encode text := by
  rw [decodeRaw_eq stored, ← Utf8.decode_eq_ok_iff]
  cases Utf8.decode blob <;> simp [Except.mapError]

theorem Topic.loadRaw_eq (stored : topic.document? = some (kind, file)) :
    topic.loadRaw library = library.loadBytes file := by
  rw [loadRaw, stored]

theorem Topic.contained_loadRaw (complete : library.Complete) (topic : Topic) :
    Loading.Contained (topic.loadRaw library) := by
  cases stored : topic.document? with
  | some document =>
    rw [loadRaw_eq stored]
    exact (complete.has_document stored).contained_loadBytes
  | none =>
    rw [loadRaw, stored]
    exact Loading.contained_ofResult (.error topic.notRaw)

/-- **Raw, a topic is rendered as it is stored**, if its document is a text and there is no query. -/
theorem render_raw_eq_ok_iff (stored : topic.document? = some (kind, file)) {settings : Settings}
    {query : Option Text} {cache after : Cache} {text : Text} :
    render settings library topic.name OutputFormat.raw.name query cache = (.ok text, after) ↔
      query = none ∧ library.loadBytes file cache = (.ok (Utf8.encode text), after) := by
  cases query with
  | some words =>
    refine iff_of_false ?_ nofun
    cases topic <;> exact nofun
  | none =>
    have answered : topic ≠ .cheatsheet := by
      rintro rfl
      cases stored
    have made : Request.make topic .raw none = .ok ⟨topic, .raw, none⟩ :=
      Request.make_eq_ok_iff.mpr ⟨rfl, nofun, fun both => answered both.1⟩
    rw [render_of_make made, and_iff_right rfl]
    show (topic.loadRaw library >>= fun blob => Loading.ofResult (topic.decodeRaw blob)) cache = _ ↔
      _
    rw [Topic.loadRaw_eq stored, Loading.bind_eq_ok_iff]
    constructor
    · rintro ⟨blob, between, loaded, decoded⟩
      rw [Loading.ofResult_eq_ok_iff, Topic.decodeRaw_eq_ok_iff stored] at decoded
      obtain ⟨rfl, rfl⟩ := decoded
      exact loaded
    · intro loaded
      exact ⟨_, after, loaded,
        Loading.ofResult_eq_ok_iff.mpr ⟨(Topic.decodeRaw_eq_ok_iff stored).mpr rfl, rfl⟩⟩

/-- **A document is given raw exactly if it is UTF-8, and then byte for byte.** About other bytes it
is told where their longest well-formed beginning ends, and what follows there. -/
theorem decodeRaw_exact (stored : topic.document? = some (kind, file)) (blob : Bytes) :
    ((∃ text, topic.decodeRaw blob = .ok text) ↔ Utf8.WellFormed blob) ∧
    (∀ text, topic.decodeRaw blob = .ok text → Utf8.encode text = blob) ∧
    (¬ Utf8.WellFormed blob → ∃ (place : Nat) (reason : Utf8.Reason),
      topic.decodeRaw blob = .error (.malformed kind.name [.make [.integer place]
        ("invalid UTF-8: ".toList ++ reason.message) "unicode_decode"]) ∧
      IsGreatest {length | ∃ front, front <+: blob ∧ Utf8.WellFormed front ∧ front.length = length}
        place ∧
      (reason = .unexpectedEnd ↔ Utf8.CutOff (blob.drop place)) ∧
      (reason = .invalidStart ↔ Utf8.BeginsNothing (blob.drop place))) ∧
    ∀ settings library query cache text after,
      render settings library topic.name OutputFormat.raw.name query cache = (.ok text, after) →
        topic.loadRaw library cache = (.ok (Utf8.encode text), after) ∧
        (cache.kept.lookup (library.pathOf file) = none →
          library.disk.find? (library.pathOf file) = some (Utf8.encode text)) := by
  refine ⟨?_, ?_, ?_, ?_⟩
  · rw [Utf8.wellFormed_iff]
    exact exists_congr fun text => Topic.decodeRaw_eq_ok_iff stored
  · intro text decoded
    exact ((Topic.decodeRaw_eq_ok_iff stored).mp decoded).symm
  · intro malformed
    cases read : Utf8.decode blob with
    | ok text => exact absurd (Utf8.exists_decode_iff.mp ⟨text, read⟩) malformed
    | error fault =>
      refine ⟨fault.start, fault.reason, ?_, Utf8.decode_eq_error read⟩
      rw [Topic.decodeRaw_eq stored, read]
      rfl
  · intro settings library query cache text after rendered
    have loaded := ((render_raw_eq_ok_iff stored).mp rendered).2
    exact ⟨Topic.loadRaw_eq stored ▸ loaded, Library.find?_of_loadBytes loaded⟩

/-- A bracket, and a character of three bytes without the last one. -/
def cutOff : Bytes := [0x5B, 0xE2, 0x82]

theorem decode_cutOff : Utf8.decode cutOff = .error ⟨1, 2, 0xE2, .unexpectedEnd⟩ := by
  have size : (Char.ofNat 0x5B).utf8Size = 1 := rfl
  simp [Utf8.decode, Utf8.decodeFrom, Utf8.next, Utf8.lead?, Utf8.follow, Except.map, cutOff, size]

/-- The longest well-formed beginning is the bracket, and behind it the character is cut off. -/
theorem decodeRaw_exact_cutOff :
    Topic.aggregates.decodeRaw cutOff = .error (.malformed "aggregates".toList [.make [.integer 1]
      ("invalid UTF-8: ".toList ++ "unexpected end of data".toList) "unicode_decode"]) ∧
    IsGreatest {length | ∃ front, front <+: cutOff ∧ Utf8.WellFormed front ∧
      front.length = length} 1 ∧
    Utf8.CutOff [0xE2, 0x82] := by
  have malformed : ¬ Utf8.WellFormed cutOff := by
    rw [← Utf8.exists_decode_iff, decode_cutOff]
    rintro ⟨_, ⟨⟩⟩
  have euro := Utf8.written_encode '€'
  have early : Utf8.CutOff [0xE2, 0x82] :=
    ⟨by decide, _, _, euro, ⟨[0xAC], by decide⟩, by decide⟩
  obtain ⟨place, reason, failed, greatest, ended, _⟩ :=
    (@decodeRaw_exact .aggregates _ _ rfl cutOff).2.2.1 malformed
  obtain rfl := greatest.unique (Utf8.decode_eq_error decode_cutOff).1
  obtain rfl := ended.mpr early
  exact ⟨failed, greatest, early⟩

/-- **The raw format gives the documents that are parsed**: each of them is a text that is parsed as
it. So whenever another format has been shown, what the raw format gives then is parsed as the
document that was laid out. -/
theorem raw_agrees (stored : topic.document? = some (kind, file)) :
    (∀ blob document, parse kind blob = .ok document → ∃ text,
      topic.decodeRaw blob = .ok text ∧ parse kind (Utf8.encode text) = .ok document) ∧
    ∀ settings library format query cache shown after, format ≠ OutputFormat.raw →
      render settings library topic.name format.name query cache = (.ok shown, after) →
      ∃ reference document text later,
        topic.loadReference library cache = (.ok reference, after) ∧
        reference.shown settings format query = .ok shown ∧
        reference.document? kind = some document ∧
        render settings library topic.name OutputFormat.raw.name none after = (.ok text, later) ∧
        parse kind (Utf8.encode text) = .ok document := by
  have text_of_parse : ∀ {blob document}, parse kind blob = .ok document →
      ∃ text, blob = Utf8.encode text := by
    intro blob document parsed
    obtain ⟨value, writes, _, _⟩ := parse_eq_ok_iff.mp parsed
    exact Utf8.wellFormed_iff.mp writes.wellFormed
  constructor
  · intro blob document parsed
    obtain ⟨text, rfl⟩ := text_of_parse parsed
    exact ⟨text, (Topic.decodeRaw_eq_ok_iff stored).mpr rfl, parsed⟩
  · intro settings library format query cache shown after laidOut rendered
    obtain ⟨_, reference, loaded, shows⟩ := (render_eq_ok_iff laidOut).mp rendered
    -- The document has been loaded last, so the raw format is given the same bytes.
    obtain ⟨document, before, there, last⟩ := Topic.document_of_loadReference stored loaded
    obtain ⟨blob, loadedBlob, parsed⟩ := Library.loadDocument_eq_ok_iff.mp last
    obtain ⟨text, rfl⟩ := text_of_parse parsed
    obtain ⟨later, again⟩ := Library.loadBytes_again loadedBlob
    exact ⟨reference, document, text, later, loaded, shows, there,
      (render_raw_eq_ok_iff stored).mpr ⟨rfl, again⟩, parsed⟩

/-- All files are there and empty, but for that of the aggregations, which lists none. -/
def unlisted : Library :=
  .holding fun name => if name = FileName.aggregates then Utf8.encode "[]".toList else []

/-- The list is laid out, and then given raw. -/
theorem raw_agrees_unlisted : ∃ shown after text later document,
    render ⟨.bundled, false, []⟩ unlisted "aggs".toList "markdown".toList none .empty =
      (.ok shown, after) ∧
    render ⟨.bundled, false, []⟩ unlisted "aggs".toList "raw".toList none after =
      (.ok text, later) ∧
    parse .aggregates (Utf8.encode text) = .ok document := by
  have parsed : parse .aggregates (Utf8.encode "[]".toList) = .ok [] := by
    have writes : Json.Writes Json.nestingLimit (Utf8.encode "[]".toList) (.array []) :=
      ⟨[], _, [], .nil, .emptyArray .nil, .nil, by decide⟩
    exact parse_of_writes writes rfl rfl
  obtain ⟨between, empty, after, stored⟩ : ∃ between,
      unlisted.loadBytes FileName.aggregatesPrelude .empty = (.ok [], between) ∧
      ∃ after, unlisted.loadBytes FileName.aggregates between =
        (.ok (Utf8.encode "[]".toList), after) := ⟨_, rfl, _, rfl⟩
  have prose : unlisted.loadText FileName.aggregatesPrelude .empty = (.ok [], between) := by
    rw [Library.loadText_eq empty, Utf8.decode_eq_ok_iff.mpr Utf8.encode_nil.symm]
    rfl
  have listed := Library.loadDocument_eq_ok_iff.mpr ⟨_, stored, parsed⟩
  have loaded : Topic.aggregates.loadReference unlisted .empty =
      (.ok (.aggregates ⟨[], []⟩), after) :=
    Loading.bind_eq_ok_iff.mpr ⟨_, _, prose, Loading.bind_eq_ok_iff.mpr ⟨_, _, listed, rfl⟩⟩
  have laidOut : OutputFormat.markdown ≠ .raw := nofun
  have rendered := (@render_eq_ok_iff ⟨.bundled, false, []⟩ unlisted .aggregates .markdown none
    _ _ _ laidOut).mpr ⟨⟨_, rfl⟩, _, loaded, rfl⟩
  obtain ⟨reference, document, text, later, _, _, _, again, same⟩ :=
    (@raw_agrees .aggregates _ _ rfl).2 _ _ _ _ _ _ _ laidOut rendered
  exact ⟨_, after, text, later, document, rendered, again, same⟩

end Handbook
