/-
**What a rendering loads.**

To lay a topic out, its reference is loaded: first some prose, and then structured documents, the
last of which is the one that the topic gives when it is asked for raw. So the prose is all that can
keep a complete library from answering, and the document has been loaded last.

* `ofNames_name`: a request by the names of a topic and a format;
* `Request.render_eq`: a rendering is a reference that is loaded and then laid out;
* `Topic.loadReference_eq`: a reference is prose and then what only fails as the handbook does;
* `Topic.document_of_loadReference`: the document of a topic is loaded last.
-/

import Handbook.Proofs.Store.Loading

namespace Handbook

/-! ### Requests by names -/

theorem Topic.ofName_name (topic : Topic) : Topic.ofName topic.name = .ok topic := by
  cases topic <;> rfl

theorem OutputFormat.ofName_name (format : OutputFormat) :
    OutputFormat.ofName format.name = .ok format := by
  cases format <;> rfl

/-- **The names of a topic and a format ask for them.** -/
theorem Request.ofNames_name (topic : Topic) (format : OutputFormat) (query : Option Text) :
    Request.ofNames topic.name format.name query =
      (Request.make topic format query).mapError .failure := by
  rw [ofNames, topic.ofName_name, format.ofName_name]
  rfl

/-! ### References that are laid out -/

/-- A reference as a format shows it. -/
def Reference.shown (settings : Settings) (format : OutputFormat) (query : Option Text)
    (reference : Reference) : Except Failure Text :=
  match format with
  | .markdown => reference.markdown
  | _ => (reference.terminalText query).map fun text =>
    if settings.color then text else Terminal.unstyled text

/-- **A rendering that is not raw is a reference that is loaded and then laid out.** -/
theorem Request.render_eq (settings : Settings) (library : Library) {request : Request}
    (laidOut : request.format ≠ .raw) :
    request.render settings library = request.topic.loadReference library >>= fun reference =>
      Loading.ofResult (reference.shown settings request.format request.query) := by
  obtain ⟨topic, format, query⟩ := request
  cases format with
  | raw => exact absurd rfl laidOut
  | markdown => rfl
  | text =>
    refine congrArg (topic.loadReference library >>= ·) (funext fun reference => ?_)
    show (Loading.ofResult (reference.terminalText query) >>= fun text =>
      pure (if settings.color then text else Terminal.unstyled text)) = _
    unfold Reference.shown
    cases reference.terminalText query <;> rfl

/-- A rendering by names is that of the request, if it can be answered. -/
theorem render_of_make {settings : Settings} {library : Library} {topic : Topic}
    {format : OutputFormat} {query : Option Text} {request : Request}
    (made : Request.make topic format query = .ok request) :
    render settings library topic.name format.name query = request.render settings library := by
  rw [render, Request.ofNames_name, made]
  rfl

theorem render_of_make_error {settings : Settings} {library : Library} {topic : Topic}
    {format : OutputFormat} {query : Option Text} {cause : Failure}
    (refused : Request.make topic format query = .error cause) :
    render settings library topic.name format.name query = throw (.failure cause) := by
  rw [render, Request.ofNames_name, refused]
  rfl

/-- **What is shown in another format than raw is a reference that has been loaded**, if the request
can be answered. -/
theorem render_eq_ok_iff {settings : Settings} {library : Library} {topic : Topic}
    {format : OutputFormat} {query : Option Text} {cache after : Cache} {shown : Text}
    (laidOut : format ≠ .raw) :
    render settings library topic.name format.name query cache = (.ok shown, after) ↔
      (∃ request, Request.make topic format query = .ok request) ∧
      ∃ reference, topic.loadReference library cache = (.ok reference, after) ∧
        reference.shown settings format query = .ok shown := by
  cases made : Request.make topic format query with
  | error cause =>
    rw [render_of_make_error made]
    refine iff_of_false ?_ ?_
    · rintro ⟨⟩
    · rintro ⟨⟨_, ⟨⟩⟩, _⟩
  | ok request =>
    obtain ⟨rfl, _⟩ := Request.make_eq_ok_iff.mp made
    rw [render_of_make made, Request.render_eq settings library laidOut, Loading.bind_eq_ok_iff,
      and_iff_right ⟨_, rfl⟩]
    refine exists_congr fun reference => ?_
    simp only [Loading.ofResult_eq_ok_iff]
    constructor
    · rintro ⟨_, loaded, shows, rfl⟩
      exact ⟨loaded, shows⟩
    · rintro ⟨loaded, shows⟩
      exact ⟨after, loaded, shows, rfl⟩

/-- The file of the prose of a topic. -/
def Topic.prose : Topic → Text
  | .cheatsheet => FileName.cheatsheet
  | .functions => FileName.functionsPrelude
  | .aggregates => FileName.aggregatesPrelude
  | .scraping => FileName.scrapingCheatsheet

/-- The document of a kind in a reference. -/
def Reference.document? : (kind : Kind) → Reference → Option kind.Document
  | .operators, .functions reference => some reference.operators
  | .functions, .functions reference => some reference.sections
  | .aggregates, .aggregates reference => some reference.entries
  | .scraping, .scraping reference => some reference.helpers
  | _, _ => none

variable {library : Library}

theorem Library.Complete.has_prose (complete : library.Complete) (topic : Topic) :
    library.Has topic.prose := by
  cases topic <;> exact complete _ (by decide)

theorem Library.Complete.has_document (complete : library.Complete) {topic : Topic} {kind : Kind}
    {file : Text} (stored : topic.document? = some (kind, file)) : library.Has file := by
  cases topic <;> cases stored <;> exact complete _ (by decide)

/-- **A reference is prose and then documents**, which give no other problem than failures of the
handbook. -/
theorem Topic.loadReference_eq (complete : library.Complete) (topic : Topic) :
    ∃ rest : Text → Loading Reference,
      topic.loadReference library = library.loadText topic.prose >>= rest ∧
        ∀ text, Loading.Contained (rest text) := by
  cases topic with
  | cheatsheet => exact ⟨_, rfl, fun _ => Loading.contained_pure _⟩
  | functions =>
    have operators : library.Has FileName.operators := complete _ (by decide)
    have functions : library.Has FileName.functions := complete _ (by decide)
    exact ⟨_, rfl, fun _ => (operators.contained_loadDocument _).bind fun _ =>
      (functions.contained_loadDocument _).bind fun _ => Loading.contained_pure _⟩
  | aggregates =>
    have aggregates : library.Has FileName.aggregates := complete _ (by decide)
    exact ⟨_, rfl, fun _ => (aggregates.contained_loadDocument _).bind fun _ =>
      Loading.contained_pure _⟩
  | scraping =>
    have scraping : library.Has FileName.scraping := complete _ (by decide)
    exact ⟨_, rfl, fun _ => (scraping.contained_loadDocument _).bind fun _ =>
      Loading.contained_pure _⟩

/-- **The document of a topic is loaded last**, so that the cache is left as that load leaves it. -/
theorem Topic.document_of_loadReference {topic : Topic} {kind : Kind} {file : Text}
    (stored : topic.document? = some (kind, file)) {cache after : Cache} {reference : Reference}
    (loaded : topic.loadReference library cache = (.ok reference, after)) :
    ∃ document before, reference.document? kind = some document ∧
      library.loadDocument kind file before = (.ok document, after) := by
  cases topic with
  | cheatsheet => cases stored
  | functions =>
    cases stored
    obtain ⟨prelude, _, _, loaded⟩ := Loading.bind_eq_ok_iff.mp loaded
    obtain ⟨operators, before, _, loaded⟩ := Loading.bind_eq_ok_iff.mp loaded
    obtain ⟨sections, _, last, ended⟩ := Loading.bind_eq_ok_iff.mp loaded
    cases ended
    exact ⟨sections, before, rfl, last⟩
  | aggregates =>
    cases stored
    obtain ⟨prelude, before, _, loaded⟩ := Loading.bind_eq_ok_iff.mp loaded
    obtain ⟨entries, _, last, ended⟩ := Loading.bind_eq_ok_iff.mp loaded
    cases ended
    exact ⟨entries, before, rfl, last⟩
  | scraping =>
    cases stored
    obtain ⟨cheatsheet, before, _, loaded⟩ := Loading.bind_eq_ok_iff.mp loaded
    obtain ⟨helpers, _, last, ended⟩ := Loading.bind_eq_ok_iff.mp loaded
    cases ended
    exact ⟨helpers, before, rfl, last⟩

end Handbook
