/-
**Where a rendering fails.**

A rendering goes through stages: the name of the topic, that of the format, whether the two can be
answered with the query, then the sources of the topic, one after the other, and last the layout.
It fails at the first stage that fails, and what later stages would have done does not matter. In
particular the files that have not been looked at may hold anything, or not be there.

* `Rejected`, `FirstFails`, `FirstFailure`: the stages, and the first one that fails;
* `Follows`: loading that goes through sources in a row, closed under going on;
* `Rejected.ofNames`: a request that is rejected gives its problem;
* `FirstFailure.of_agrees`: a failure stays the first one as long as the files looked at stay;
* `render_fails_first`: a rendering fails at the first stage that fails.
-/

import Handbook.Proofs.Render.Raw

namespace Handbook

/-! ### Stages -/

/-- What is read from a file. -/
inductive Reading where
  | prose
  | document (kind : Kind)
  | raw (topic : Topic)

/-- A file, and what is read from it. -/
structure Source where
  file : Text
  reading : Reading

/-- The introduction of the functions. -/
def preludeSource : Source := ⟨FileName.functionsPrelude, .prose⟩

/-- The operators. -/
def operatorsSource : Source := ⟨FileName.operators, .document .operators⟩

/-- What a topic is rendered from, in order. -/
def Topic.sources : OutputFormat → Topic → List Source
  | .raw, .cheatsheet => []
  | .raw, .functions => [⟨FileName.functions, .raw .functions⟩]
  | .raw, .aggregates => [⟨FileName.aggregates, .raw .aggregates⟩]
  | .raw, .scraping => [⟨FileName.scraping, .raw .scraping⟩]
  | _, .cheatsheet => [⟨FileName.cheatsheet, .prose⟩]
  | _, .functions =>
    [preludeSource, operatorsSource, ⟨FileName.functions, .document .functions⟩]
  | _, .aggregates => [⟨FileName.aggregatesPrelude, .prose⟩,
      ⟨FileName.aggregates, .document .aggregates⟩]
  | _, .scraping => [⟨FileName.scrapingCheatsheet, .prose⟩,
      ⟨FileName.scraping, .document .scraping⟩]

/-- The problem of a result, if it is one. -/
def problemOf {α : Type} : Except Problem α → Option Problem
  | .ok _ => none
  | .error problem => some problem

theorem eq_error_of_problemOf {α : Type} {result : Except Problem α} {problem : Problem}
    (failed : problemOf result = some problem) : result = .error problem := by
  cases result with
  | ok value => cases failed
  | error other =>
    cases failed
    rfl

theorem eq_ok_of_problemOf {α : Type} {result : Except Problem α}
    (clean : problemOf result = none) : ∃ value, result = .ok value := by
  cases result with
  | ok value => exact ⟨value, rfl⟩
  | error problem => cases clean

/-- The problem with some bytes, if they cannot be read. -/
def Reading.problem? : Reading → Bytes → Option Problem
  | .prose, bytes => problemOf ((Utf8.decode bytes).mapError .undecodable)
  | .document kind, bytes => problemOf ((parse kind bytes).mapError .failure)
  | .raw topic, bytes => problemOf ((topic.decodeRaw bytes).mapError .failure)

/-- Whether a source fails: nothing is there, or a directory of which nothing is kept is, or what is
loaded cannot be read. -/
inductive Source.Fails (library : Library) (source : Source) (cache : Cache) :
    Problem → Cache → Prop
  | missing : library.disk.node? (library.pathOf source.file) = none →
      Fails library source cache (.missingFile (.nothing (library.pathOf source.file))) cache
  | directory : library.disk.node? (library.pathOf source.file) = some .directory →
      cache.kept.lookup (library.pathOf source.file) = none →
      Fails library source cache (.missingFile (.directory (library.pathOf source.file)))
        { cache with misses := cache.misses + 1 }
  | unreadable {bytes problem after} :
      library.loadBytes source.file cache = (.ok bytes, after) →
      source.reading.problem? bytes = some problem → Fails library source cache problem after

/-- Whether a source can be read. -/
def Source.Passes (library : Library) (source : Source) (cache after : Cache) : Prop :=
  ∃ bytes, library.loadBytes source.file cache = (.ok bytes, after) ∧
    source.reading.problem? bytes = none

/-- Whether all of some sources can be read, one after the other. -/
inductive AllPass (library : Library) : List Source → Cache → Cache → Prop
  | nil {cache} : AllPass library [] cache cache
  | cons {source others cache between after} : source.Passes library cache between →
      AllPass library others between after → AllPass library (source :: others) cache after

/-- Which of some sources are looked at until one of them fails, and how that one does. -/
inductive FirstFails (library : Library) :
    List Source → Cache → List Source → Problem → Cache → Prop
  | here {source others cache problem after} : source.Fails library cache problem after →
      FirstFails library (source :: others) cache [source] problem after
  | later {source others cache between looked problem after} :
      source.Passes library cache between →
      FirstFails library others between looked problem after →
      FirstFails library (source :: others) cache (source :: looked) problem after

/-- Whether a request is rejected: its topic is unknown, or else its format is, or they cannot be
answered with the query. -/
inductive Rejected : (topic format : Text) → (query : Option Text) → Problem → Prop
  | topic {topic format query} : (∀ known : Topic, known.name ≠ topic) →
      Rejected topic format query (.unknownName topic "HelpTopic")
  | format {topic : Topic} {format query} : (∀ known : OutputFormat, known.name ≠ format) →
      Rejected topic.name format query (.unknownName format "OutputFormat")
  | sectionTopic {topic : Topic} {format : OutputFormat} {words : Text} : topic ≠ .functions →
      Rejected topic.name format.name (some words) (.failure (.sectionTopic topic.name))
  | sectionFormat {format : OutputFormat} {words : Text} : format ≠ .text →
      Rejected Topic.functions.name format.name (some words)
        (.failure (.sectionFormat Topic.functions.name format.name))
  | unsupported : Rejected Topic.cheatsheet.name OutputFormat.raw.name none
      (.failure (.unsupportedFormat Topic.cheatsheet.name OutputFormat.raw.name))

/-- A reference as it is laid out, before colors are taken away. -/
def Reference.laidOut (format : OutputFormat) (query : Option Text) (reference : Reference) :
    Except Failure Text :=
  match format with
  | .markdown => reference.markdown
  | _ => reference.terminalText query

/-- The first stage of a rendering that fails: which sources have been looked at by then, what the
problem is, and what is left of the cache. -/
inductive FirstFailure (library : Library) (query : Option Text) (cache : Cache) :
    (topic format : Text) → List Source → Problem → Cache → Prop
  | rejected {topic format problem} : Rejected topic format query problem →
      FirstFailure library query cache topic format [] problem cache
  | source {topic : Topic} {format : OutputFormat} {looked problem after} :
      (∀ problem, ¬ Rejected topic.name format.name query problem) →
      FirstFails library (topic.sources format) cache looked problem after →
      FirstFailure library query cache topic.name format.name looked problem after
  | layout {topic : Topic} {format : OutputFormat} {reference cause after} :
      (∀ problem, ¬ Rejected topic.name format.name query problem) → format ≠ .raw →
      AllPass library (topic.sources format) cache after →
      topic.loadReference library cache = (.ok reference, after) →
      reference.laidOut format query = .error cause →
      FirstFailure library query cache topic.name format.name (topic.sources format)
        (.failure cause) after

/-! ### Requests that are rejected -/

theorem Topic.ofName_of_ne {name : Text} (unknown : ∀ known : Topic, known.name ≠ name) :
    Topic.ofName name = .error (.unknownName name "HelpTopic") := by
  have none : all.find? (·.name == name) = none :=
    List.find?_eq_none.mpr fun known _ => by simpa using unknown known
  rw [ofName, none]

theorem OutputFormat.ofName_of_ne {name : Text}
    (unknown : ∀ known : OutputFormat, known.name ≠ name) :
    OutputFormat.ofName name = .error (.unknownName name "OutputFormat") := by
  have none : all.find? (·.name == name) = none :=
    List.find?_eq_none.mpr fun known _ => by simpa using unknown known
  rw [ofName, none]

/-- **A request that is rejected gives its problem.** -/
theorem Rejected.ofNames {topic format : Text} {query : Option Text} {problem : Problem}
    (rejected : Rejected topic format query problem) :
    Request.ofNames topic format query = .error problem := by
  cases rejected with
  | topic unknown =>
    rw [Request.ofNames, Topic.ofName_of_ne unknown]
    rfl
  | format unknown =>
    rw [Request.ofNames, Topic.ofName_name, OutputFormat.ofName_of_ne unknown]
    rfl
  | sectionTopic other =>
    rw [Request.ofNames_name, Request.make, if_pos ⟨rfl, other⟩]
    rfl
  | sectionFormat other =>
    rw [Request.ofNames_name, Request.make, if_neg (fun both => both.2 rfl), if_pos ⟨rfl, other⟩]
    rfl
  | unsupported => rfl

/-- What is not rejected can be answered. -/
theorem make_of_accepted {topic : Topic} {format : OutputFormat} {query : Option Text}
    (accepted : ∀ problem, ¬ Rejected topic.name format.name query problem) :
    Request.make topic format query = .ok ⟨topic, format, query⟩ := by
  refine Request.make_eq_ok_iff.mpr ⟨rfl, ?_, ?_⟩
  · intro asked
    obtain ⟨words, rfl⟩ := Option.isSome_iff_exists.mp asked
    have known : topic = .functions := by
      by_contra other
      exact accepted _ (.sectionTopic other)
    subst known
    refine ⟨rfl, ?_⟩
    by_contra other
    exact accepted _ (.sectionFormat other)
  · rintro ⟨rfl, rfl⟩
    cases query with
    | none => exact accepted _ .unsupported
    | some words => exact accepted _ (.sectionTopic nofun)

theorem render_of_accepted {topic : Topic} {format : OutputFormat} {query : Option Text}
    (accepted : ∀ problem, ¬ Rejected topic.name format.name query problem) (settings : Settings)
    (library : Library) : render settings library topic.name format.name query =
      Request.render settings library ⟨topic, format, query⟩ :=
  render_of_make (make_of_accepted accepted)

theorem render_of_rejected {topic format : Text} {query : Option Text} {problem : Problem}
    (rejected : Rejected topic format query problem) (settings : Settings) (library : Library)
    (cache : Cache) :
    render settings library topic format query cache = (.error problem, cache) := by
  rw [render, rejected.ofNames]
  rfl

/-- A request is rejected, or it names a topic and a format. -/
theorem rejected_or_accepted (topic format : Text) (query : Option Text) :
    (∃ problem, Rejected topic format query problem) ∨
      ∃ (known : Topic) (shape : OutputFormat), topic = known.name ∧ format = shape.name ∧
        ∀ problem, ¬ Rejected known.name shape.name query problem := by
  by_cases rejected : ∃ problem, Rejected topic format query problem
  · exact .inl rejected
  · refine .inr ?_
    have named : ∃ known : Topic, known.name = topic := by
      by_contra unknown
      exact rejected ⟨_, .topic fun known same => unknown ⟨known, same⟩⟩
    obtain ⟨known, rfl⟩ := named
    have shaped : ∃ shape : OutputFormat, shape.name = format := by
      by_contra unknown
      exact rejected ⟨_, .format fun shape same => unknown ⟨shape, same⟩⟩
    obtain ⟨shape, rfl⟩ := shaped
    exact ⟨known, shape, rfl, rfl, not_exists.mp rejected⟩

/-! ### Loading that follows sources -/

section

variable {α β : Type} {library : Library} {cache after : Cache} {problem : Problem}

/-- Whether loading looks at some sources in a row: it fails where and as the first of them fails
that does, and it succeeds if all of them can be read. -/
structure Follows (library : Library) (sources : List Source) (load : Loading α) : Prop where
  failed : ∀ cache problem after, load cache = (.error problem, after) ↔
    ∃ looked, FirstFails library sources cache looked problem after
  passed : ∀ cache after, (∃ value, load cache = (.ok value, after)) ↔
    AllPass library sources cache after

theorem follows_pure (value : α) : Follows library [] (pure value : Loading α) where
  failed cache problem after := by
    refine iff_of_false nofun ?_
    rintro ⟨_, ⟨⟩⟩
  passed cache after := by
    constructor
    · rintro ⟨_, ⟨⟩⟩
      exact .nil
    · rintro ⟨⟩
      exact ⟨value, rfl⟩

/-- **Loading that reads a source and goes on with others follows all of them.** -/
theorem Follows.bind {source : Source} {sources : List Source} {first : Loading α}
    {next : α → Loading β} (one : Follows library [source] first)
    (others : ∀ value, Follows library sources (next value)) :
    Follows library (source :: sources) (first >>= next) where
  failed cache problem after := by
    rw [Loading.bind_eq_error_iff]
    constructor
    · rintro (failed | ⟨value, between, loaded, failed⟩)
      · -- The first load follows one source only, so it is that one that fails.
        obtain ⟨looked, fails⟩ := (one.failed _ _ _).mp failed
        cases fails with
        | here fails => exact ⟨_, .here fails⟩
        | later _ none => cases none
      · obtain ⟨looked, fails⟩ := ((others value).failed _ _ _).mp failed
        cases (one.passed _ _).mp ⟨value, loaded⟩ with
        | cons passes nothing =>
          cases nothing
          exact ⟨_, .later passes fails⟩
    · rintro ⟨looked, fails⟩
      cases fails with
      | here fails => exact .inl ((one.failed _ _ _).mpr ⟨_, .here fails⟩)
      | later passes fails =>
        obtain ⟨value, loaded⟩ := (one.passed _ _).mpr (.cons passes .nil)
        exact .inr ⟨value, _, loaded, ((others value).failed _ _ _).mpr ⟨_, fails⟩⟩
  passed cache after := by
    constructor
    · rintro ⟨result, ended⟩
      obtain ⟨value, between, loaded, ended⟩ := Loading.bind_eq_ok_iff.mp ended
      cases (one.passed _ _).mp ⟨value, loaded⟩ with
      | cons passes nothing =>
        cases nothing
        exact .cons passes (((others value).passed _ _).mp ⟨result, ended⟩)
    · rintro (_ | ⟨passes, rest⟩)
      obtain ⟨value, loaded⟩ := (one.passed _ _).mpr (.cons passes .nil)
      obtain ⟨result, ended⟩ := ((others value).passed _ _).mpr rest
      exact ⟨result, Loading.bind_eq_ok_iff.mpr ⟨value, _, loaded, ended⟩⟩

/-- Loading a file and reading it follows its source, if what is read fails as the source does. -/
theorem follows_source (source : Source) {next : Bytes → Loading α}
    (read : Bytes → Except Problem α)
    (reads : ∀ bytes cache, next bytes cache = (read bytes, cache))
    (same : ∀ bytes, source.reading.problem? bytes = problemOf (read bytes)) :
    Follows library [source] (library.loadBytes source.file >>= next) where
  failed cache problem after := by
    rw [Loading.bind_eq_error_iff, Library.loadBytes_eq_error_iff]
    constructor
    · rintro ((⟨missing, rfl, rfl⟩ | ⟨directory, fresh, rfl, rfl⟩) | ⟨bytes, between, loaded, ended⟩)
      · exact ⟨_, .here (.missing missing)⟩
      · exact ⟨_, .here (.directory directory fresh)⟩
      · rw [reads, Prod.mk.injEq] at ended
        obtain ⟨failed, rfl⟩ := ended
        exact ⟨_, .here (.unreadable loaded (by rw [same, failed]; rfl))⟩
    · rintro ⟨looked, fails⟩
      cases fails with
      | here fails =>
        cases fails with
        | missing missing => exact .inl (.inl ⟨missing, rfl, rfl⟩)
        | directory directory fresh => exact .inl (.inr ⟨directory, fresh, rfl, rfl⟩)
        | unreadable loaded failed =>
          refine .inr ⟨_, _, loaded, ?_⟩
          rw [same] at failed
          rw [reads, eq_error_of_problemOf failed]
      | later _ none => cases none
  passed cache after := by
    constructor
    · rintro ⟨value, ended⟩
      obtain ⟨bytes, between, loaded, ended⟩ := Loading.bind_eq_ok_iff.mp ended
      rw [reads, Prod.mk.injEq] at ended
      obtain ⟨read, rfl⟩ := ended
      exact .cons ⟨bytes, loaded, by rw [same, read]; rfl⟩ .nil
    · rintro (_ | ⟨⟨bytes, loaded, clean⟩, ⟨⟩⟩)
      rw [same] at clean
      obtain ⟨value, read⟩ := eq_ok_of_problemOf clean
      exact ⟨value, Loading.bind_eq_ok_iff.mpr ⟨bytes, after, loaded, by rw [reads, read]⟩⟩

theorem follows_loadText (file : Text) :
    Follows library [⟨file, .prose⟩] (library.loadText file) :=
  follows_source ⟨file, .prose⟩ (fun bytes => (Utf8.decode bytes).mapError .undecodable)
    (fun bytes cache => by cases Utf8.decode bytes <;> rfl) fun bytes => rfl

theorem follows_loadDocument (kind : Kind) (file : Text) :
    Follows library [⟨file, .document kind⟩] (library.loadDocument kind file) := by
  rw [Library.loadDocument_eq]
  exact follows_source ⟨file, .document kind⟩ _
    (fun bytes cache => Loading.ofResult_apply (parse kind bytes) cache) fun bytes => rfl

theorem follows_raw {topic : Topic} {kind : Kind} {file : Text}
    (stored : topic.document? = some (kind, file)) : Follows library [⟨file, .raw topic⟩]
      (topic.loadRaw library >>= fun blob => Loading.ofResult (topic.decodeRaw blob)) := by
  rw [Topic.loadRaw_eq stored]
  exact follows_source ⟨file, .raw topic⟩ _
    (fun bytes cache => Loading.ofResult_apply (topic.decodeRaw bytes) cache) fun bytes => rfl

/-- What is laid out comes from the same sources in either format. -/
theorem Topic.sources_eq (topic : Topic) {format : OutputFormat} (laidOut : format ≠ .raw) :
    topic.sources format = topic.sources .text := by
  cases format with
  | raw => exact absurd rfl laidOut
  | text => rfl
  | markdown => cases topic <;> rfl

/-- **A reference is loaded from the sources of its topic, in their order.** -/
theorem Topic.follows_loadReference (topic : Topic) {format : OutputFormat}
    (laidOut : format ≠ .raw) :
    Follows library (topic.sources format) (topic.loadReference library) := by
  rw [topic.sources_eq laidOut]
  cases topic with
  | cheatsheet => exact (follows_loadText _).bind fun _ => follows_pure _
  | functions =>
    exact (follows_loadText _).bind fun _ => (follows_loadDocument _ _).bind fun _ =>
      (follows_loadDocument _ _).bind fun _ => follows_pure _
  | aggregates =>
    exact (follows_loadText _).bind fun _ => (follows_loadDocument _ _).bind fun _ => follows_pure _
  | scraping =>
    exact (follows_loadText _).bind fun _ => (follows_loadDocument _ _).bind fun _ => follows_pure _

end

/-! ### The first stage that fails -/

theorem Reference.shown_eq_error_iff {settings : Settings} {format : OutputFormat}
    {query : Option Text} {reference : Reference} {cause : Failure} :
    reference.shown settings format query = .error cause ↔
      reference.laidOut format query = .error cause := by
  cases format with
  | markdown => exact Iff.rfl
  | text => exact map_eq_error_iff
  | raw => exact map_eq_error_iff

/-- A rendering fails where one of its sources does, or else where the layout does. -/
theorem Request.render_eq_error_iff {settings : Settings} {library : Library} {topic : Topic}
    {format : OutputFormat} {query : Option Text}
    (answered : ¬ (topic = .cheatsheet ∧ format = .raw))
    {cache after : Cache} {problem : Problem} :
    Request.render settings library ⟨topic, format, query⟩ cache = (.error problem, after) ↔
      (∃ looked, FirstFails library (topic.sources format) cache looked problem after) ∨
      ∃ reference cause, format ≠ .raw ∧ problem = .failure cause ∧
        topic.loadReference library cache = (.ok reference, after) ∧
        reference.laidOut format query = .error cause := by
  by_cases raw : format = .raw
  · subst raw
    have follows : Follows library (topic.sources .raw)
        (Request.render settings library ⟨topic, .raw, query⟩) := by
      cases topic with
      | cheatsheet => exact absurd ⟨rfl, rfl⟩ answered
      | functions => exact follows_raw rfl
      | aggregates => exact follows_raw rfl
      | scraping => exact follows_raw rfl
    rw [follows.failed, or_iff_left]
    rintro ⟨_, _, laidOut, _⟩
    exact laidOut rfl
  · have laidOut : (⟨topic, format, query⟩ : Request).format ≠ .raw := raw
    rw [Request.render_eq settings library laidOut, Loading.bind_eq_error_iff,
      (topic.follows_loadReference raw).failed]
    refine or_congr_right ?_
    constructor
    · rintro ⟨reference, between, loaded, failed⟩
      obtain ⟨cause, rfl, fails, rfl⟩ := Loading.ofResult_eq_error_iff.mp failed
      exact ⟨reference, cause, raw, rfl, loaded, Reference.shown_eq_error_iff.mp fails⟩
    · rintro ⟨reference, cause, _, rfl, loaded, failed⟩
      exact ⟨reference, after, loaded, Loading.ofResult_eq_error_iff.mpr
        ⟨cause, rfl, Reference.shown_eq_error_iff.mpr failed, rfl⟩⟩

variable {library : Library} {query : Option Text} {cache after : Cache} {topic format : Text}
  {looked : List Source} {problem : Problem}

theorem answered_of_accepted {topic : Topic} {format : OutputFormat}
    (accepted : ∀ problem, ¬ Rejected topic.name format.name query problem) :
    ¬ (topic = .cheatsheet ∧ format = .raw) :=
  (Request.make_eq_ok_iff.mp (make_of_accepted accepted)).2.2

/-- **A rendering fails as the first of its stages does that fails**, and not if none does. -/
theorem render_eq_error_iff (settings : Settings) :
    render settings library topic format query cache = (.error problem, after) ↔
      ∃ looked, FirstFailure library query cache topic format looked problem after := by
  constructor
  · intro failed
    rcases rejected_or_accepted topic format query with
      ⟨problem', rejected⟩ | ⟨known, shape, rfl, rfl, accepted⟩
    · rw [render_of_rejected rejected] at failed
      cases failed
      exact ⟨[], .rejected rejected⟩
    · rw [render_of_accepted accepted,
        Request.render_eq_error_iff (answered_of_accepted accepted)] at failed
      rcases failed with ⟨looked, fails⟩ | ⟨reference, cause, laidOut, rfl, loaded, fails⟩
      · exact ⟨looked, .source accepted fails⟩
      · have passed := ((known.follows_loadReference laidOut).passed _ _).mp ⟨reference, loaded⟩
        exact ⟨_, .layout accepted laidOut passed loaded fails⟩
  · rintro ⟨looked, first⟩
    cases first with
    | rejected rejected => exact render_of_rejected rejected settings library cache
    | source accepted fails =>
      rw [render_of_accepted accepted,
        Request.render_eq_error_iff (answered_of_accepted accepted)]
      exact .inl ⟨looked, fails⟩
    | layout accepted laidOut _ loaded fails =>
      rw [render_of_accepted accepted,
        Request.render_eq_error_iff (answered_of_accepted accepted)]
      exact .inr ⟨_, _, laidOut, rfl, loaded, fails⟩

/-! ### Files that are not looked at -/

/-- Whether the same stands on a disk as on that of a library where the files of some sources are. -/
def Agrees (library : Library) (sources : List Source) (disk : Disk) : Prop :=
  ∀ source ∈ sources,
    disk.node? (library.pathOf source.file) = library.disk.node? (library.pathOf source.file)

variable {disk : Disk}

theorem Source.Passes.of_same {source : Source} (passes : source.Passes library cache after)
    (same : disk.node? (library.pathOf source.file) =
      library.disk.node? (library.pathOf source.file)) :
    source.Passes ⟨disk, library.root⟩ cache after := by
  obtain ⟨bytes, loaded, clean⟩ := passes
  exact ⟨bytes, (Library.loadBytes_of_same same).symm ▸ loaded, clean⟩

theorem Source.Fails.of_same {source : Source} (fails : source.Fails library cache problem after)
    (same : disk.node? (library.pathOf source.file) =
      library.disk.node? (library.pathOf source.file)) :
    source.Fails ⟨disk, library.root⟩ cache problem after := by
  cases fails with
  | missing missing =>
    have missing' : disk.node? (library.pathOf source.file) = none := same.trans missing
    exact .missing missing'
  | directory directory fresh =>
    have directory' : disk.node? (library.pathOf source.file) = some .directory :=
      same.trans directory
    exact .directory directory' fresh
  | unreadable loaded failed =>
    exact .unreadable ((Library.loadBytes_of_same same).symm ▸ loaded) failed

/-- **Sources fail the same way as long as those looked at stay.** -/
theorem FirstFails.of_agrees {sources : List Source}
    (fails : FirstFails library sources cache looked problem after)
    (agrees : Agrees library looked disk) :
    FirstFails ⟨disk, library.root⟩ sources cache looked problem after := by
  induction fails with
  | here fails => exact .here (fails.of_same (agrees _ (List.mem_cons_self ..)))
  | later passes _ step =>
    exact .later (passes.of_same (agrees _ (List.mem_cons_self ..)))
      (step fun source member => agrees source (List.mem_cons_of_mem _ member))

theorem AllPass.of_agrees {sources : List Source} (passed : AllPass library sources cache after)
    (agrees : Agrees library sources disk) : AllPass ⟨disk, library.root⟩ sources cache after := by
  induction passed with
  | nil => exact .nil
  | cons passes _ step =>
    exact .cons (passes.of_same (agrees _ (List.mem_cons_self ..)))
      (step fun source member => agrees source (List.mem_cons_of_mem _ member))

/-- A reference is the same as long as the sources of its topic are. -/
theorem loadReference_of_agrees {topic : Topic} {format : OutputFormat} (laidOut : format ≠ .raw)
    (agrees : Agrees library (topic.sources format) disk) :
    topic.loadReference ⟨disk, library.root⟩ = topic.loadReference library := by
  rw [topic.sources_eq laidOut] at agrees
  cases topic <;>
    simp only [Agrees, Topic.sources, preludeSource, operatorsSource, List.forall_mem_cons] at agrees
  case cheatsheet =>
    obtain ⟨body, -⟩ := agrees
    rw [Topic.loadReference, Topic.loadReference, Library.loadText_of_same body]
  case functions =>
    obtain ⟨prelude, operators, functions, -⟩ := agrees
    rw [Topic.loadReference, Topic.loadReference, Library.loadText_of_same prelude,
      Library.loadDocument_of_same _ operators, Library.loadDocument_of_same _ functions]
  case aggregates =>
    obtain ⟨prelude, entries, -⟩ := agrees
    rw [Topic.loadReference, Topic.loadReference, Library.loadText_of_same prelude,
      Library.loadDocument_of_same _ entries]
  case scraping =>
    obtain ⟨cheatsheet, helpers, -⟩ := agrees
    rw [Topic.loadReference, Topic.loadReference, Library.loadText_of_same cheatsheet,
      Library.loadDocument_of_same _ helpers]

/-- **A failure stays the first one as long as the files looked at stay**, whatever the disk holds
elsewhere. -/
theorem FirstFailure.of_agrees
    (first : FirstFailure library query cache topic format looked problem after)
    (agrees : Agrees library looked disk) :
    FirstFailure ⟨disk, library.root⟩ query cache topic format looked problem after := by
  cases first with
  | rejected rejected => exact .rejected rejected
  | source accepted fails => exact .source accepted (fails.of_agrees agrees)
  | layout accepted laidOut passed loaded fails =>
    rw [← loadReference_of_agrees laidOut agrees] at loaded
    exact .layout accepted laidOut (passed.of_agrees agrees) loaded fails

/-- The functions can be shown as text with any query. -/
theorem accepted_functions (query : Option Text) (problem : Problem) :
    ¬ Rejected Topic.functions.name OutputFormat.text.name query problem := by
  intro rejected
  have refused := rejected.ofNames
  have answered : Request.make .functions .text query = .ok ⟨.functions, .text, query⟩ :=
    Request.make_eq_ok_iff.mpr ⟨rfl, fun _ => ⟨rfl, rfl⟩, nofun⟩
  rw [Request.ofNames_name, answered] at refused
  cases refused

/-- Operators that cannot be read keep the functions from being shown, whatever the query is. -/
theorem render_of_operators_fail {between : Cache}
    (passes : preludeSource.Passes library cache between)
    (fails : operatorsSource.Fails library between problem after) (settings : Settings)
    (query : Option Text) :
    render settings library Topic.functions.name OutputFormat.text.name query cache =
      (.error problem, after) :=
  (render_eq_error_iff settings).mpr
    ⟨_, .source (accepted_functions query) (.later passes (.here fails))⟩

theorem render_of_operators_not_pass (unread : ∀ between after,
      preludeSource.Passes library cache between → ¬ operatorsSource.Passes library between after)
    (settings : Settings) (query : Option Text) : ∃ problem after,
      render settings library Topic.functions.name OutputFormat.text.name query cache =
        (.error problem, after) := by
  have laidOut : OutputFormat.text ≠ .raw := nofun
  have follows : Follows library _ (Topic.functions.loadReference library) :=
    Topic.functions.follows_loadReference laidOut
  -- Had it been shown, all sources would have been read, and the operators with them.
  cases ended : render settings library Topic.functions.name OutputFormat.text.name query cache with
  | mk result after =>
    cases result with
    | error problem => exact ⟨problem, after, rfl⟩
    | ok shown =>
      obtain ⟨_, reference, loaded, _⟩ := (render_eq_ok_iff laidOut).mp ended
      cases (follows.passed _ _).mp ⟨reference, loaded⟩ with
      | cons prelude rest =>
        cases rest with
        | cons operators _ => exact absurd operators (unread _ _ prelude)

/-- **A rendering fails at the first stage that fails**, and what comes later does not matter. So it
fails the same way on every disk that agrees in the files that have been looked at by then; if it is
rejected it fails the same way whatever the files are, and leaves the cache as it is; and a query
that drops the operators fails as they do, if they are not there or malformed. -/
theorem render_fails_first :
    (∀ settings library topic format query cache problem after,
      render settings library topic format query cache = (.error problem, after) ↔
        ∃ looked, FirstFailure library query cache topic format looked problem after) ∧
    (∀ library topic format query cache looked problem after,
      FirstFailure library query cache topic format looked problem after →
        ∀ settings disk, Agrees library looked disk →
          render settings ⟨disk, library.root⟩ topic format query cache =
            (.error problem, after)) ∧
    (∀ topic format query problem, Rejected topic format query problem →
      ∀ settings library cache,
        render settings library topic format query cache = (.error problem, cache)) ∧
    ∀ words library cache, keepsOperators (some words) = false →
      (∀ between problem after, preludeSource.Passes library cache between →
        operatorsSource.Fails library between problem after → ∀ settings,
          render settings library Topic.functions.name OutputFormat.text.name (some words) cache =
            (.error problem, after)) ∧
      ((∀ between after, preludeSource.Passes library cache between →
          ¬ operatorsSource.Passes library between after) → ∀ settings, ∃ problem after,
        render settings library Topic.functions.name OutputFormat.text.name (some words) cache =
          (.error problem, after)) := by
  refine ⟨?_, ?_, ?_, ?_⟩
  · intro settings library topic format query cache problem after
    exact render_eq_error_iff settings
  · intro library topic format query cache looked problem after first settings disk agrees
    exact (render_eq_error_iff settings).mpr ⟨looked, first.of_agrees agrees⟩
  · intro topic format query problem rejected
    exact render_of_rejected rejected
  · intro words library cache _
    exact ⟨fun between problem after passes fails settings =>
      render_of_operators_fail passes fails settings _, fun unread settings =>
        render_of_operators_not_pass unread settings _⟩

/-- A library whose files are empty but for that of the functions, which holds some bytes. -/
def barren (functions : Bytes) : Library :=
  .holding fun name => if name = FileName.functions then functions else []

/-- Empty operators fail a query that drops them, whatever is in the file of the functions; and a
query for aggregations fails even without files. -/
theorem render_fails_first_barren :
    keepsOperators (some "abs".toList) = false ∧
    (∃ problem after, ∀ functions, render ⟨.bundled, false, []⟩ (barren functions)
      "functions".toList "text".toList (some "abs".toList) .empty = (.error problem, after)) ∧
    render ⟨.bundled, false, []⟩ ⟨⟨[], []⟩, .bundled⟩ "aggs".toList "text".toList
      (some "abs".toList) .empty = (.error (.failure (.sectionTopic "aggs".toList)), .empty) := by
  have drops : keepsOperators (some "abs".toList) = false := by decide
  have rejected : Rejected Topic.aggregates.name OutputFormat.text.name (some "abs".toList) _ :=
    .sectionTopic nofun
  obtain ⟨-, same, rejects, -⟩ := render_fails_first
  refine ⟨drops, ?_, rejects _ _ _ _ rejected _ _ _⟩
  obtain ⟨between, empty, after, stored⟩ : ∃ between,
      (barren []).loadBytes FileName.functionsPrelude .empty = (.ok [], between) ∧
      ∃ after, (barren []).loadBytes FileName.operators between = (.ok [], after) :=
    ⟨_, rfl, _, rfl⟩
  have read : Utf8.decode [] = .ok [] := Utf8.decode_eq_ok_iff.mpr Utf8.encode_nil.symm
  have prelude : preludeSource.Passes (barren []) .empty between := ⟨[], empty, by
    rw [preludeSource, Reading.problem?, read]
    rfl⟩
  have operators : operatorsSource.Fails (barren []) between _ after := .unreadable stored rfl
  have first : FirstFailure (barren []) (some "abs".toList) .empty Topic.functions.name
      OutputFormat.text.name [preludeSource, operatorsSource] _ after :=
    .source (accepted_functions _) (.later prelude (.here operators))
  refine ⟨_, _, fun functions => same _ _ _ _ _ _ _ _ first _ (barren functions).disk ?_⟩
  exact List.forall_mem_cons.mpr ⟨rfl, List.forall_mem_cons.mpr ⟨rfl, nofun⟩⟩

end Handbook
