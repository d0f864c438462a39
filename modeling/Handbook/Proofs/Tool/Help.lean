/-
**When the help tool answers.**

As long as all files are there, whatever they hold, the tool answers with an envelope, and what is
wrong with a structured document becomes an error in it. Only prose can keep the tool from
answering: bytes of it that are no UTF-8 are no failure of the handbook, and so their problem is
passed on.

* `helpEnvelope_apply`: what the tool makes of a rendering;
* `render_contained`, `render_undecodable`: which problems a rendering gives;
* `help_answers_iff`: when the tool answers, and what becomes of the problems of a rendering.
-/

import Handbook.Proofs.Render.Raw
import Handbook.Tool.Help

namespace Handbook.Tool

/-! ### Envelopes of renderings -/

/-- What the tool makes of the end of a rendering: an envelope, be it of the text or of a failure,
and nothing of any other problem. -/
def answerOf (success : Text → Envelope) : Except Problem Text → Except Problem Envelope
  | .ok shown => .ok (success shown)
  | .error (.failure cause) => .ok (.ofFailure cause)
  | .error problem => .error problem

theorem catchFailure_apply (answer : Loading Envelope) (cache : Cache) :
    catchFailure answer cache = match answer cache with
      | (.error (.failure cause), after) => (.ok (.ofFailure cause), after)
      | ended => ended := by
  simp only [catchFailure, tryCatch, tryCatchThe, MonadExceptOf.tryCatch, ExceptT.tryCatch,
    ExceptT.mk, bind, StateT.bind]
  cases answer cache with
  | mk result after =>
    cases result with
    | ok envelope => rfl
    | error problem => cases problem <;> rfl

theorem catchFailure_rendering (success : Text → Envelope) (rendering : Loading Text)
    (cache : Cache) :
    (catchFailure (rendering >>= fun shown => pure (success shown)) cache).1 =
      answerOf success (rendering cache).1 := by
  rw [catchFailure_apply]
  cases ended : rendering cache with
  | mk result after =>
    cases result with
    | ok shown =>
      rw [Loading.bind_of_ok ended]
      rfl
    | error problem =>
      rw [Loading.bind_of_error ended]
      cases problem <;> rfl

/-- **The tool answers with what it makes of the rendering.** -/
theorem helpEnvelope_apply (settings : Settings) (library : Library) (topic : Topic)
    (format : OutputFormat) (query : Option Text) (cache : Cache) :
    (helpEnvelope settings library topic.name format.name query cache).1 =
      answerOf (fun shown => .success (helpData settings ⟨topic, format, query⟩ shown).toValue)
        (render settings library topic.name format.name query cache).1 := by
  unfold helpEnvelope render
  rw [Request.ofNames_name]
  cases made : Request.make topic format query with
  | error cause => exact catchFailure_rendering _ (throw (.failure cause)) cache
  | ok request =>
    obtain ⟨rfl, _⟩ := Request.make_eq_ok_iff.mp made
    exact catchFailure_rendering _ (Request.render settings library ⟨topic, format, query⟩) cache

/-! ### Problems of renderings -/

section

variable {settings : Settings} {library : Library} {topic : Topic} {format : OutputFormat}
  {query : Option Text} {cache after : Cache} {problem : Problem}

/-- Whether a request is to be answered from prose that is no UTF-8. -/
def ReadsUndecodable (library : Library) (topic : Topic) (format : OutputFormat)
    (query : Option Text) (cache : Cache) : Prop :=
  (∃ request, Request.make topic format query = .ok request) ∧ format ≠ .raw ∧
    ∃ bytes after, library.loadBytes topic.prose cache = (.ok bytes, after) ∧
      ¬ Utf8.WellFormed bytes

/-- **Prose that is no UTF-8 is a problem of the rendering.** -/
theorem render_undecodable (complete : library.Complete)
    (reads : ReadsUndecodable library topic format query cache) : ∃ fault after,
      render settings library topic.name format.name query cache =
        (.error (.undecodable fault), after) := by
  obtain ⟨⟨request, made⟩, laidOut, bytes, after, loaded, malformed⟩ := reads
  obtain ⟨rfl, _⟩ := Request.make_eq_ok_iff.mp made
  obtain ⟨rest, loads, _⟩ := topic.loadReference_eq complete
  obtain ⟨fault, prose⟩ := Library.loadText_of_malformed loaded malformed
  refine ⟨fault, after, ?_⟩
  rw [render_of_make made, Request.render_eq settings library laidOut, loads, bind_assoc]
  exact Loading.bind_of_error prose

/-- **Otherwise a rendering gives no other problem than a failure of the handbook.** -/
theorem render_contained (complete : library.Complete)
    (readable : ¬ ReadsUndecodable library topic format query cache)
    (failed : render settings library topic.name format.name query cache =
      (.error problem, after)) : ∃ cause, problem = .failure cause := by
  cases made : Request.make topic format query with
  | error cause =>
    rw [render_of_make_error made] at failed
    cases failed
    exact ⟨cause, rfl⟩
  | ok request =>
    obtain ⟨rfl, _⟩ := Request.make_eq_ok_iff.mp made
    rw [render_of_make made] at failed
    by_cases raw : format = .raw
    · subst raw
      exact (topic.contained_loadRaw complete).bind (fun _ => Loading.contained_ofResult _) _ _ _
        failed
    · -- The prose is loaded first; once it is a text, only documents are left to load.
      obtain ⟨rest, loads, contained⟩ := topic.loadReference_eq complete
      obtain ⟨bytes, between, loaded⟩ := (complete.has_prose topic).exists_loadBytes cache
      have wellFormed : Utf8.WellFormed bytes := by
        by_contra malformed
        exact readable ⟨⟨_, made⟩, raw, bytes, between, loaded, malformed⟩
      obtain ⟨text, prose⟩ := Library.loadText_of_wellFormed loaded wellFormed
      rw [Request.render_eq settings library raw, loads, bind_assoc, Loading.bind_of_ok prose]
        at failed
      exact (contained text).bind (fun _ => Loading.contained_ofResult _) _ _ _ failed

end

/-! ### Answers -/

/-- Whether an envelope shows a rendering of a topic in a format: it tells success and no error, and
the rendering is the content of its one entry. -/
def Envelope.Shows (topic : Topic) (format : OutputFormat) (shown : Text) (envelope : Envelope) :
    Prop :=
  envelope.ok = true ∧ envelope.error = none ∧ ∃ summary, envelope.data = .object
    [("source".toList, .string "help".toList), ("action".toList, .string "render".toList),
      ("entries".toList, .array [.object
        [("topic".toList, .string topic.name), ("format".toList, .string format.name),
          ("content".toList, .string shown)]]),
      ("summary".toList, .object summary)]

/-- Whether an envelope tells of a failure: it tells no success and has no data, and its error has
the code, the message and the details of the failure. -/
def Envelope.TellsFailure (cause : Failure) (envelope : Envelope) : Prop :=
  envelope.ok = false ∧ envelope.data = .null ∧ ∃ error, envelope.error = some error ∧
    error.code = cause.code.toList ∧ error.message = cause.message ∧
    error.details.map Json.Value.object = cause.details?

theorem shows_success (settings : Settings) (request : Request) (shown : Text) :
    (Envelope.success (helpData settings request shown).toValue).Shows request.topic request.format
      shown :=
  ⟨rfl, rfl, _, rfl⟩

theorem tellsFailure_ofFailure (cause : Failure) : (Envelope.ofFailure cause).TellsFailure cause := by
  refine ⟨rfl, rfl, _, rfl, rfl, rfl, ?_⟩
  cases cause <;> rfl

/-- **The help tool answers unless prose is no UTF-8**, as long as all files are there. A rendering
is shown, every failure of it is told with its code, its message and its details, and the only other
problem is that of the prose. -/
theorem help_answers_iff {library : Library} (complete : library.Complete) (settings : Settings)
    (topic : Topic) (format : OutputFormat) (query : Option Text) (cache : Cache) :
    ((∃ envelope, (helpEnvelope settings library topic.name format.name query cache).1 =
        .ok envelope) ↔ ¬ ReadsUndecodable library topic format query cache) ∧
    (∀ shown, (render settings library topic.name format.name query cache).1 = .ok shown →
      ∃ envelope, (helpEnvelope settings library topic.name format.name query cache).1 =
        .ok envelope ∧ envelope.Shows topic format shown) ∧
    ∀ problem, (render settings library topic.name format.name query cache).1 = .error problem →
      (∃ cause envelope, problem = .failure cause ∧
        (helpEnvelope settings library topic.name format.name query cache).1 = .ok envelope ∧
        envelope.TellsFailure cause) ∨
      (∃ fault, problem = .undecodable fault ∧
        (helpEnvelope settings library topic.name format.name query cache).1 =
          .error problem) := by
  rw [helpEnvelope_apply]
  by_cases reads : ReadsUndecodable library topic format query cache
  · obtain ⟨fault, after, failed⟩ := @render_undecodable settings _ _ _ _ _ complete reads
    rw [failed]
    refine ⟨iff_of_false ?_ (not_not_intro reads), nofun, ?_⟩
    · rintro ⟨_, ⟨⟩⟩
    · rintro _ ⟨⟩
      exact .inr ⟨fault, rfl, rfl⟩
  · cases ended : render settings library topic.name format.name query cache with
    | mk result after =>
      cases result with
      | ok shown =>
        refine ⟨iff_of_true ⟨_, rfl⟩ reads, ?_, nofun⟩
        rintro _ ⟨⟩
        exact ⟨_, rfl, shows_success settings ⟨topic, format, query⟩ shown⟩
      | error problem =>
        obtain ⟨cause, rfl⟩ := render_contained complete reads ended
        refine ⟨iff_of_true ⟨_, rfl⟩ reads, nofun, ?_⟩
        rintro _ ⟨⟩
        exact .inl ⟨cause, _, rfl, rfl, tellsFailure_ofFailure cause⟩

/-- The settings of an empty environment. -/
def plainSettings : Settings := .ofEnvironment []

/-- All files are there and empty. They are no documents, and still there is an answer. -/
theorem help_answers_iff_empty : (Library.holding fun _ => []).Complete ∧ ∃ envelope,
    (helpEnvelope plainSettings (Library.holding fun _ => []) "functions".toList
      "markdown".toList none .empty).1 = .ok envelope := by
  have complete := Library.complete_holding fun _ => []
  refine ⟨complete,
    (help_answers_iff complete plainSettings .functions .markdown none .empty).1.mpr ?_⟩
  rintro ⟨_, _, bytes, after, loaded, malformed⟩
  cases loaded
  exact malformed .nil

/-- All files are there, and that of the cheatsheet holds a byte that begins no character. -/
def torn : Library := .holding fun name => if name = FileName.cheatsheet then [0xFF] else []

/-- **A byte of the cheatsheet keeps the tool from answering.** -/
theorem help_torn : torn.Complete ∧ ∃ fault,
    (helpEnvelope plainSettings torn "cheatsheet".toList "markdown".toList none .empty).1 =
      .error (.undecodable fault) := by
  have complete : torn.Complete := Library.complete_holding _
  have malformed : ¬ Utf8.WellFormed [0xFF] := by
    rw [← Utf8.exists_decode_iff]
    rintro ⟨text, read⟩
    simp [Utf8.decode, Utf8.decodeFrom, Utf8.next, Utf8.lead?] at read
  have reads : ReadsUndecodable torn .cheatsheet .markdown none .empty :=
    ⟨⟨_, rfl⟩, by decide, [0xFF], _, rfl, malformed⟩
  obtain ⟨fault, after, failed⟩ := @render_undecodable plainSettings _ _ _ _ _ complete reads
  refine ⟨complete, fault, ?_⟩
  have answers := helpEnvelope_apply plainSettings torn .cheatsheet .markdown none .empty
  rw [failed] at answers
  exact answers

end Handbook.Tool
