/-
**What the browse tool answers.**

As long as the three files with entries are there, whatever they hold, the tool answers with an
envelope. It parses all three documents before it looks anything up, so one that is malformed is
told even if there is an entry to be found in another. Otherwise what is found is the entries that
have the name, in the order of the handbook, and where there are none the names to choose from.

* `browse_apply`: the tool answers with what it makes of the three documents;
* `matchItems_eq`: what is found is selected among all entries, in their order;
* `knownNames_ascending`, `mem_knownNames_iff`: the names to choose from;
* `browse_answers`: what the tool answers.
-/

import Handbook.Proofs.Document.Parse
import Handbook.Proofs.Tool.Help
import Handbook.Tool.Browse

namespace Handbook

/-! ### Loading the documents -/

/-- The names of the files with entries, in the order in which they are loaded. -/
def entryFiles : List Text := [FileName.functions, FileName.aggregates, FileName.scraping]

/-- What the files with entries are loaded as. -/
structure Blobs where
  functions : Bytes
  aggregates : Bytes
  scraping : Bytes

namespace Blobs

/-- Whether some blobs are what the files give when they are loaded in a row. -/
def LoadedFrom (library : Library) (cache : Cache) (blobs : Blobs) : Prop :=
  ∃ first second third,
    library.loadBytes FileName.functions cache = (.ok blobs.functions, first) ∧
    library.loadBytes FileName.aggregates first = (.ok blobs.aggregates, second) ∧
    library.loadBytes FileName.scraping second = (.ok blobs.scraping, third)

/-- Whether some blobs are what the disk holds. -/
def StoredIn (library : Library) (blobs : Blobs) : Prop :=
  library.disk.find? (library.pathOf FileName.functions) = some blobs.functions ∧
    library.disk.find? (library.pathOf FileName.aggregates) = some blobs.aggregates ∧
    library.disk.find? (library.pathOf FileName.scraping) = some blobs.scraping

/-- The first kind of document that is malformed. -/
inductive FirstMalformed (blobs : Blobs) : Kind → Prop
  | functions {cause} : parse .functions blobs.functions = .error cause →
      FirstMalformed blobs .functions
  | aggregates {functions cause} : parse .functions blobs.functions = .ok functions →
      parse .aggregates blobs.aggregates = .error cause → FirstMalformed blobs .aggregates
  | scraping {functions aggregates cause} : parse .functions blobs.functions = .ok functions →
      parse .aggregates blobs.aggregates = .ok aggregates →
      parse .scraping blobs.scraping = .error cause → FirstMalformed blobs .scraping

end Blobs

namespace Library

variable {library : Library} {name : Text} {cache after : Cache} {bytes : Bytes}

/-- A load of one path keeps nothing of another. -/
theorem fresh_after_loadBytes (loaded : library.loadBytes name cache = (.ok bytes, after))
    {other : Path} (different : other ≠ library.pathOf name)
    (fresh : cache.kept.lookup other = none) : after.kept.lookup other = none := by
  obtain ⟨node, -, fetched⟩ := loadBytes_eq_ok_iff.mp loaded
  rw [Cache.lookup_eq_none_iff] at fresh ⊢
  intro member
  obtain ⟨file, kept, rfl⟩ := List.mem_map.mp member
  rcases Cache.mem_kept_fetch fetched kept with same | old
  · exact different (congrArg Prod.fst same)
  · exact fresh (List.mem_map_of_mem old)

theorem pathOf_ne {other : Text} (library : Library)
    (relative : (Path.ofText name).anchor = .relative ∧ (Path.ofText other).anchor = .relative)
    (different : (Path.ofText name).parts ≠ (Path.ofText other).parts) :
    library.pathOf name ≠ library.pathOf other := by
  intro same
  simp only [pathOf, Path.join, relative, Path.mk.injEq, List.append_cancel_left_eq] at same
  exact different same.2

/-- Files with entries that are there are loaded in a row. -/
theorem exists_loadedFrom (there : ∀ name ∈ entryFiles, library.Has name) (cache : Cache) :
    ∃ blobs : Blobs, blobs.LoadedFrom library cache := by
  simp only [entryFiles, List.forall_mem_cons] at there
  obtain ⟨hasFunctions, hasAggregates, hasScraping, -⟩ := there
  obtain ⟨functions, first, one⟩ := hasFunctions.exists_loadBytes cache
  obtain ⟨aggregates, second, two⟩ := hasAggregates.exists_loadBytes first
  obtain ⟨scraping, third, three⟩ := hasScraping.exists_loadBytes second
  exact ⟨⟨functions, aggregates, scraping⟩, first, second, third, one, two, three⟩

end Library

/-- **What is loaded is what the disk holds**, if nothing of the files was kept before. -/
theorem Blobs.LoadedFrom.storedIn {blobs : Blobs} {library : Library} {cache : Cache}
    (loaded : blobs.LoadedFrom library cache)
    (fresh : ∀ name ∈ entryFiles, cache.kept.lookup (library.pathOf name) = none) :
    blobs.StoredIn library := by
  simp only [entryFiles, List.forall_mem_cons] at fresh
  obtain ⟨functions, aggregates, scraping, -⟩ := fresh
  obtain ⟨first, second, third, one, two, three⟩ := loaded
  -- Loading one file keeps nothing of the others, so each is fresh when its turn comes.
  have aggregates := Library.fresh_after_loadBytes one
    (library.pathOf_ne (by decide) (by decide)) aggregates
  have scraping := Library.fresh_after_loadBytes one
    (library.pathOf_ne (by decide) (by decide)) scraping
  have scraping := Library.fresh_after_loadBytes two
    (library.pathOf_ne (by decide) (by decide)) scraping
  exact ⟨Library.find?_of_loadBytes one functions, Library.find?_of_loadBytes two aggregates,
    Library.find?_of_loadBytes three scraping⟩

/-! ### The order of texts -/

namespace Text

/-- Whether a text comes before another: by the codes of their characters, and what is shorter
first. -/
def Before : Text → Text → Prop := List.Lex fun first second => first.toNat < second.toNat

/-- **Texts are in order if they are the same, or if one comes before the other.** -/
theorem inOrder_iff {first second : Text} :
    inOrder first second = true ↔ first = second ∨ Before first second := by
  induction first generalizing second with
  | nil =>
    cases second with
    | nil => simp [inOrder]
    | cons c rest => exact iff_of_true rfl (.inr .nil)
  | cons c rest step =>
    cases second with
    | nil => simp [inOrder, Before]
    | cons d others =>
      simp only [inOrder, Bool.or_eq_true, decide_eq_true_eq, Bool.and_eq_true, beq_iff_eq, step]
      constructor
      · rintro (smaller | ⟨rfl, rfl | before⟩)
        · exact .inr (.rel smaller)
        · exact .inl rfl
        · exact .inr (.cons before)
      · rintro (same | before)
        · cases same
          exact .inr ⟨rfl, .inl rfl⟩
        · cases before with
          | rel smaller => exact .inl smaller
          | cons before => exact .inr ⟨rfl, .inr before⟩

theorem inOrder_trans (first second third : Text) (one : inOrder first second = true)
    (two : inOrder second third = true) : inOrder first third = true := by
  rw [inOrder_iff] at one two ⊢
  rcases one with rfl | one
  · exact two
  · rcases two with rfl | two
    · exact .inr one
    · exact .inr (List.lex_trans Nat.lt_trans one two)

theorem inOrder_total (first second : Text) :
    (inOrder first second || inOrder second first) = true := by
  induction first generalizing second with
  | nil => simp [inOrder]
  | cons c rest step =>
    cases second with
    | nil => simp [inOrder]
    | cons d others =>
      have both := step others
      simp only [inOrder, Bool.or_eq_true, decide_eq_true_eq, Bool.and_eq_true, beq_iff_eq]
        at both ⊢
      rcases Nat.lt_trichotomy c.toNat d.toNat with smaller | same | greater
      · exact .inl (.inl smaller)
      · have same : c = d := Char.toNat_inj.mp same
        exact both.imp (fun order => .inr ⟨same, order⟩) (fun order => .inr ⟨same.symm, order⟩)
      · exact .inr (.inl greater)

end Text

namespace Tool

open Json

/-! ### Entries in their sections -/

/-- All sections of three documents. -/
def sectionsOf (functions : List FunctionSection) (aggregates : List Entry)
    (scraping : ScrapingHelpers) : List BrowseSection :=
  (functions.map fun part => ⟨"functions".toList, part.title, part.functions⟩) ++
    [⟨"aggs".toList, "Aggregation functions".toList, aggregates⟩,
      ⟨"scraping".toList, "Selector functions".toList, scraping.selectors⟩,
      ⟨"scraping".toList, "Extractor functions".toList, scraping.extractors⟩]

/-- An entry in its section. -/
structure Documented where
  part : BrowseSection
  entry : Entry

/-- All entries of some sections, in their order. -/
def documented (sections : List BrowseSection) : List Documented :=
  sections.flatMap fun part => part.entries.map fun entry => ⟨part, entry⟩

/-- Whether an entry has a name, be it as its name or as an alias. -/
def Documented.IsNamed (name : Text) (place : Documented) : Prop :=
  name = place.entry.name ∨ name ∈ place.entry.aliases.getD []

instance (name : Text) : DecidablePred (Documented.IsNamed name) :=
  fun place => inferInstanceAs (Decidable (name = place.entry.name ∨ _))

theorem Documented.isNamed_iff {name : Text} {place : Documented} :
    place.IsNamed name ↔ name ∈ place.entry.names := List.mem_cons.symm

/-- The fields of an entry that are there, in order. -/
def Documented.fields (place : Documented) : Members :=
  let texts (items : List Text) : Value := .array (items.map .string)
  [("name".toList, .string place.entry.name)]
    ++ (place.entry.arguments.map fun names => ("arguments".toList, texts names)).toList
    ++ [("returns".toList, .string place.entry.returns), ("help".toList, .string place.entry.help)]
    ++ (place.entry.aliases.map fun names => ("aliases".toList, texts names)).toList
    ++ (place.entry.alternatives.map fun lists =>
      ("alternatives".toList, .array (lists.map texts))).toList

theorem Documented.toCompactValue_eq (place : Documented) :
    place.entry.toCompactValue = .object place.fields := by
  obtain ⟨_, _, arguments, _, _, aliases, alternatives⟩ := place
  cases arguments <;> cases aliases <;> cases alternatives <;> rfl

/-- The item of an entry that is found: the reference and the section that it stands in, its fields
and its list item. -/
def Documented.item (place : Documented) : Members :=
  [("source".toList, .string place.part.source), ("section".toList, .string place.part.title),
    ("entry".toList, .object place.fields), ("markdown".toList, .string place.entry.markdown)]

/-- **What is found is selected among all entries, in their order.** -/
theorem matchItems_eq (name : Text) (sections : List BrowseSection) :
    sections.flatMap (BrowseSection.matchItems name) =
      ((documented sections).filter (·.IsNamed name)).map Documented.item := by
  rw [documented, List.filter_flatMap, List.map_flatMap]
  refine congrArg (sections.flatMap ·) (funext fun part => ?_)
  rw [List.filter_map, List.map_map, BrowseSection.matchItems]
  have same : (fun entry : Entry => entry.names.contains name) =
      (fun place : Documented => decide (place.IsNamed name)) ∘ fun entry => ⟨part, entry⟩ :=
    funext fun entry => by simp [Documented.isNamed_iff]
  rw [same]
  refine congrArg (List.map · _) (funext fun entry => ?_)
  rw [Function.comp_apply, Documented.item, ← Documented.toCompactValue_eq]

/-- The names to choose from are the names and aliases of all entries. -/
theorem mem_knownNames_iff {sections : List BrowseSection} {name : Text} :
    name ∈ knownNames sections ↔ ∃ place ∈ documented sections, place.IsNamed name := by
  simp only [Documented.isNamed_iff]
  simp only [knownNames, documented, List.mem_mergeSort, List.mem_eraseDups, List.mem_flatMap,
    List.mem_map]
  constructor
  · rintro ⟨part, listed, entry, member, named⟩
    exact ⟨⟨part, entry⟩, ⟨part, listed, entry, member, rfl⟩, named⟩
  · rintro ⟨_, ⟨part, listed, entry, member, rfl⟩, named⟩
    exact ⟨part, listed, entry, member, named⟩

/-- **The names to choose from are in order, each once.** -/
theorem knownNames_ascending (sections : List BrowseSection) :
    (knownNames sections).Pairwise Text.Before := by
  have distinct : (knownNames sections).Nodup :=
    (List.mergeSort_perm _ _).nodup_iff.mpr (nodup_eraseDups _)
  have ordered : (knownNames sections).Pairwise fun first second =>
      Text.inOrder first second = true :=
    List.pairwise_mergeSort Text.inOrder_trans Text.inOrder_total _
  -- Two texts in order that are not the same are strictly in order.
  refine (ordered.and distinct).imp fun {first second} both => ?_
  exact (Text.inOrder_iff.mp both.1).resolve_left both.2

/-! ### Answers -/

/-- The sections of three blobs, each of which is parsed before the next one is looked at. -/
def sectionsIn (blobs : Blobs) : Except Failure (List BrowseSection) := do
  let functions ← parse .functions blobs.functions
  let aggregates ← parse .aggregates blobs.aggregates
  let scraping ← parse .scraping blobs.scraping
  return sectionsOf functions aggregates scraping

/-- What the tool makes of a name, once the sections are known or fail to be. -/
def answerIn (name : Text) : Except Failure (List BrowseSection) → Envelope
  | .ok sections => if name.isEmpty then sectionList sections else lookUp name sections
  | .error cause => .ofFailure cause

theorem browseSections_apply {blobs : Blobs} {library : Library} {cache : Cache}
    (loaded : blobs.LoadedFrom library cache) :
    (browseSections library cache).1 = (sectionsIn blobs).mapError .failure := by
  obtain ⟨first, second, third, one, two, three⟩ := loaded
  refine Loading.bind_of_result (Library.loadDocument_of_loaded one .functions) fun functions => ?_
  refine Loading.bind_of_result (Library.loadDocument_of_loaded two .aggregates) fun aggregates => ?_
  exact Loading.bind_of_result (Library.loadDocument_of_loaded three .scraping) fun scraping => rfl

/-- **The tool answers with what it makes of the three documents.** -/
theorem browse_apply {blobs : Blobs} {library : Library} {cache : Cache}
    (loaded : blobs.LoadedFrom library cache) (name : Option Text) :
    (browse library name cache).1 = .ok (answerIn (normalizeName name) (sectionsIn blobs)) := by
  obtain ⟨after, ended⟩ : ∃ after, browseSections library cache =
      ((sectionsIn blobs).mapError .failure, after) :=
    ⟨_, Prod.ext (browseSections_apply loaded) rfl⟩
  rw [browse, catchFailure_apply]
  cases known : sectionsIn blobs with
  | ok sections =>
    rw [known] at ended
    rw [Loading.bind_of_ok ended]
    rfl
  | error cause =>
    rw [known] at ended
    rw [Loading.bind_of_error ended]
    rfl

/-- Whether an envelope tells that a document of some kind is malformed. -/
def Envelope.TellsMalformed (kind : Kind) (envelope : Envelope) : Prop :=
  envelope.ok = false ∧ ∃ error details, envelope.error = some error ∧
    error.code = "malformed_input".toList ∧ error.details = some details ∧
    member? "kind".toList details = some (.string kind.name)

/-- Whether an envelope lists some sections: it tells success and no error, and its data are one
item for each of them, in their order, and how many they are. -/
def Envelope.Lists (sections : List BrowseSection) (envelope : Envelope) : Prop :=
  envelope.ok = true ∧ envelope.error = none ∧ envelope.data = .object
    [("source".toList, .string "functions".toList), ("action".toList, .string "browse".toList),
      ("entries".toList, .array (sections.map fun part => .object
        [("source".toList, .string part.source), ("section".toList, .string part.title),
          ("count".toList, .integer part.entries.length),
          ("names".toList, .array (part.entries.map fun entry => .string entry.name))])),
      ("summary".toList, .object [("count".toList, .integer sections.length)])]

/-- Whether an envelope gives some entries under a name: it tells success and no error, and its data
are one item for each of them, in their order, how many they are, and the name. -/
def Envelope.Gives (name : Text) (found : List Documented) (envelope : Envelope) : Prop :=
  envelope.ok = true ∧ envelope.error = none ∧ envelope.data = .object
    [("source".toList, .string "functions".toList), ("action".toList, .string "browse".toList),
      ("entries".toList, .array (found.map fun place => .object place.item)),
      ("summary".toList, .object
        [("count".toList, .integer found.length), ("name".toList, .string name)])]

/-- Whether an envelope tells that no entry has a name, and offers others to choose from. -/
def Envelope.Offers (name : Text) (names : List Text) (envelope : Envelope) : Prop :=
  envelope.ok = false ∧ envelope.data = .null ∧ ∃ error, envelope.error = some error ∧
    error.code = "function_not_found".toList ∧
    error.message = "No function, aggregation or scraping helper named '".toList ++ name ++
      "'.".toList ∧
    error.details = some [("input".toList, .object [("name".toList, .string name)]),
      ("available_names".toList, .array (names.map .string))]

theorem sectionsIn_eq_error {blobs : Blobs} {kind : Kind} (first : blobs.FirstMalformed kind) :
    ∃ reports, sectionsIn blobs = .error (.malformed kind.name reports) := by
  cases first with
  | functions malformed =>
    obtain ⟨reports, rfl⟩ := parse_eq_error malformed
    exact ⟨reports, by rw [sectionsIn, malformed]; rfl⟩
  | aggregates functions malformed =>
    obtain ⟨reports, rfl⟩ := parse_eq_error malformed
    exact ⟨reports, by rw [sectionsIn, functions, malformed]; rfl⟩
  | scraping functions aggregates malformed =>
    obtain ⟨reports, rfl⟩ := parse_eq_error malformed
    exact ⟨reports, by rw [sectionsIn, functions, aggregates, malformed]; rfl⟩

theorem sectionsIn_eq_ok {blobs : Blobs} {functions : List FunctionSection}
    {aggregates : List Entry} {scraping : ScrapingHelpers}
    (one : parse .functions blobs.functions = .ok functions)
    (two : parse .aggregates blobs.aggregates = .ok aggregates)
    (three : parse .scraping blobs.scraping = .ok scraping) :
    sectionsIn blobs = .ok (sectionsOf functions aggregates scraping) := by
  rw [sectionsIn, one, two, three]
  rfl

theorem tellsMalformed_ofFailure (kind : Kind) (reports : List Report) :
    (Envelope.ofFailure (.malformed kind.name reports)).TellsMalformed kind :=
  ⟨rfl, _, _, rfl, congrArg String.toList rfl, rfl, rfl⟩

theorem lists_sectionList (sections : List BrowseSection) :
    (sectionList sections).Lists sections := by
  refine ⟨rfl, rfl, ?_⟩
  simp only [sectionList, Envelope.success, browseData, DocsData.toValue, Value.record, countValue,
    BrowseSection.item, Value.strings, List.map_cons, List.map_nil, List.map_map, List.length_map,
    Function.comp_def]

/-- A name that entries have gives these entries. -/
theorem gives_lookUp {name : Text} {sections : List BrowseSection}
    (found : ∃ place ∈ documented sections, place.IsNamed name) :
    (lookUp name sections).Gives name
      ((documented sections).filter (·.IsNamed name)) := by
  obtain ⟨place, listed, named⟩ := found
  have selected : place ∈ (documented sections).filter (·.IsNamed name) :=
    List.mem_filter.mpr ⟨listed, decide_eq_true named⟩
  rw [lookUp, matchItems_eq]
  cases places : (documented sections).filter (·.IsNamed name) with
  | nil => exact absurd (places ▸ selected) List.not_mem_nil
  | cons first others =>
    refine ⟨rfl, rfl, ?_⟩
    simp only [Envelope.success, browseData, DocsData.toValue, Value.record, countValue,
      List.map_cons, List.map_nil, List.map_map, List.length_cons, List.length_map]
    rfl

/-- A name that no entry has gives the names to choose from. -/
theorem offers_lookUp {name : Text} {sections : List BrowseSection}
    (absent : ¬ ∃ place ∈ documented sections, place.IsNamed name) :
    (lookUp name sections).Offers name (knownNames sections) := by
  have none : (documented sections).filter (·.IsNamed name) = [] :=
    List.filter_eq_nil_iff.mpr fun place listed named =>
      absent ⟨place, listed, of_decide_eq_true named⟩
  rw [lookUp, matchItems_eq, none]
  exact ⟨rfl, rfl, _, rfl, rfl, rfl, rfl⟩

/-- **What the browse tool answers**, as long as the files with entries are there. It always answers.
If one of the three documents is malformed, the answer tells the kind of the first one that is.
Otherwise, without a name the answer lists all sections; with one that entries have it gives just
these entries, in their order; and with any other it offers the names that entries have, in order. -/
theorem browse_answers {library : Library} (there : ∀ name ∈ entryFiles, library.Has name)
    (name : Option Text) (cache : Cache) :
    ∃ (blobs : Blobs) (envelope : Envelope), blobs.LoadedFrom library cache ∧
      ((∀ name ∈ entryFiles, cache.kept.lookup (library.pathOf name) = none) →
        blobs.StoredIn library) ∧
      (browse library name cache).1 = .ok envelope ∧
      (∀ kind, blobs.FirstMalformed kind → envelope.TellsMalformed kind) ∧
      ∀ functions aggregates scraping, parse .functions blobs.functions = .ok functions →
        parse .aggregates blobs.aggregates = .ok aggregates →
        parse .scraping blobs.scraping = .ok scraping →
        let sections := sectionsOf functions aggregates scraping
        let wanted := normalizeName name
        (wanted = [] → envelope.Lists sections) ∧
        (wanted ≠ [] → (∃ place ∈ documented sections, place.IsNamed wanted) →
          envelope.Gives wanted ((documented sections).filter (·.IsNamed wanted))) ∧
        (wanted ≠ [] → (¬ ∃ place ∈ documented sections, place.IsNamed wanted) →
          ∃ names, envelope.Offers wanted names ∧ names.Pairwise Text.Before ∧
            (∀ other, other ∈ names ↔ ∃ place ∈ documented sections, place.IsNamed other) ∧
            wanted ∉ names) := by
  obtain ⟨blobs, loaded⟩ := Library.exists_loadedFrom there cache
  refine ⟨blobs, _, loaded, loaded.storedIn, browse_apply loaded name, ?_, ?_⟩
  · intro kind first
    obtain ⟨reports, failed⟩ := sectionsIn_eq_error first
    rw [failed]
    exact tellsMalformed_ofFailure kind reports
  · intro functions aggregates scraping one two three
    rw [sectionsIn_eq_ok one two three]
    refine ⟨?_, ?_, ?_⟩
    · intro blank
      rw [answerIn, if_pos (List.isEmpty_iff.mpr blank)]
      exact lists_sectionList _
    · intro named found
      rw [answerIn, if_neg (mt List.isEmpty_iff.mp named)]
      exact gives_lookUp found
    · intro named absent
      rw [answerIn, if_neg (mt List.isEmpty_iff.mp named)]
      exact ⟨_, offers_lookUp absent, knownNames_ascending _, fun other => mem_knownNames_iff,
        mt mem_knownNames_iff.mp absent⟩

/-! ### A small handbook -/

/-- A library whose files with entries hold some blobs. -/
def libraryOf (blobs : Blobs) : Library := .holding fun name =>
  if name = FileName.functions then blobs.functions
  else if name = FileName.aggregates then blobs.aggregates
  else blobs.scraping

theorem there_libraryOf (blobs : Blobs) : ∀ name ∈ entryFiles, (libraryOf blobs).Has name := by
  simp only [entryFiles, List.forall_mem_cons]
  exact ⟨⟨_, rfl⟩, ⟨_, rfl⟩, ⟨_, rfl⟩, nofun⟩

theorem loadedFrom_libraryOf {blobs loaded : Blobs}
    (first : loaded.LoadedFrom (libraryOf blobs) .empty) : loaded = blobs := by
  obtain ⟨_, _, _, one, two, three⟩ := first
  cases loaded
  cases one
  cases two
  cases three
  rfl

/-- An empty list. -/
def emptyList : Bytes := Utf8.encode "[]".toList

theorem parse_emptyList : parse .functions emptyList = .ok [] := by
  have writes : Writes nestingLimit emptyList (.array []) :=
    ⟨[], _, [], .nil, .emptyArray .nil, .nil, by decide⟩
  exact parse_of_writes writes (by decide) rfl

/-- An aggregation with an alias. -/
def counted : Entry := ⟨"count".toList, none, "n".toList, [], some ["len".toList], none⟩

/-- A list with one aggregation. -/
def countedList : Bytes := Utf8.encode
  "[\x7b\"name\":\"count\",\"returns\":\"n\",\"help\":\"\",\"aliases\":[\"len\"]\x7d]".toList

theorem parse_countedList : parse .aggregates countedList = .ok [counted] := by
  have field : ∀ name text : Text, (name.all fun c => 0x20 ≤ c.toNat && c != '"' && c != '\\') →
      (text.all fun c => 0x20 ≤ c.toNat && c != '"' && c != '\\') →
      SpellsMember (Spells 198) (name, .string text) _ := fun _ _ one two =>
    .member (SpellsText.plain one) .nil .nil (.string (SpellsText.plain two))
  have aliases : SpellsMember (Spells 198) ("aliases".toList, .array [.string "len".toList]) _ :=
    .member (SpellsText.plain (by decide)) .nil .nil
      (.array .nil (.last (.string (SpellsText.plain (by decide))) .nil))
  have entry : Spells 199 (.object [_, _, _, _]) _ := .object .nil <|
    .next (field "name".toList "count".toList (by decide) (by decide)) .nil .nil <|
      .next (field "returns".toList "n".toList (by decide) (by decide)) .nil .nil <|
        .next (field "help".toList [] (by decide) (by decide)) .nil .nil <| .last aliases .nil
  have writes : Writes nestingLimit countedList (.array [.object _]) :=
    ⟨[], _, [], .nil, .array .nil (.last entry .nil), .nil, by decide⟩
  exact parse_of_writes writes (by decide) rfl

/-- A document without scraping helpers. -/
def helpless : Bytes := Utf8.encode "\x7b\"selectors\":[],\"extractors\":[]\x7d".toList

theorem parse_helpless : parse .scraping helpless = .ok ⟨[], []⟩ := by
  have field : ∀ name : Text, (name.all fun c => 0x20 ≤ c.toNat && c != '"' && c != '\\') →
      SpellsMember (Spells 199) (name, .array []) _ := fun _ plain =>
    .member (SpellsText.plain plain) .nil .nil (.emptyArray .nil)
  have writes : Writes nestingLimit helpless (.object [_, _]) :=
    ⟨[], _, [], .nil, .object .nil <| .next (field "selectors".toList (by decide)) .nil .nil <|
      .last (field "extractors".toList (by decide)) .nil, .nil, by decide⟩
  exact parse_of_writes writes (by decide) rfl

/-- The alias finds the aggregation; if the scraping helpers are malformed, that is told instead. -/
theorem browse_answers_counted :
    (∃ envelope, (browse (libraryOf ⟨emptyList, countedList, helpless⟩) (some " len ".toList)
        .empty).1 = .ok envelope ∧
      envelope.Gives "len".toList
        [⟨⟨"aggs".toList, "Aggregation functions".toList, [counted]⟩, counted⟩]) ∧
    ∃ envelope, (browse (libraryOf ⟨emptyList, countedList, []⟩) (some " len ".toList)
        .empty).1 = .ok envelope ∧
      envelope.TellsMalformed .scraping := by
  constructor
  · obtain ⟨blobs, envelope, loaded, -, answered, -, parsed⟩ :=
      browse_answers (there_libraryOf ⟨emptyList, countedList, helpless⟩) (some " len ".toList)
        .empty
    obtain rfl := loadedFrom_libraryOf loaded
    obtain ⟨-, gives, -⟩ := parsed _ _ _ parse_emptyList parse_countedList parse_helpless
    have listed : documented (sectionsOf [] [counted] ⟨[], []⟩) =
      [⟨⟨"aggs".toList, "Aggregation functions".toList, [counted]⟩, counted⟩] := rfl
    have wanted : normalizeName (some " len ".toList) = "len".toList := by decide
    have named : (Documented.mk ⟨"aggs".toList, "Aggregation functions".toList, [counted]⟩
      counted).IsNamed "len".toList := .inr (by decide)
    rw [listed, wanted] at gives
    exact ⟨envelope, answered, gives (by decide) ⟨_, List.mem_singleton_self _, named⟩⟩
  · obtain ⟨blobs, envelope, loaded, -, answered, malformed, -⟩ :=
      browse_answers (there_libraryOf ⟨emptyList, countedList, []⟩) (some " len ".toList) .empty
    obtain rfl := loadedFrom_libraryOf loaded
    exact ⟨envelope, answered, malformed _ (.scraping parse_emptyList parse_countedList rfl)⟩

end Tool

end Handbook
