/-
**What loading ends with.**

Loading goes from one cache to the next and ends with a value or with a problem. As long as the files
are there, structured documents and stored bytes give no other problem than a failure of the
handbook; only prose that is no UTF-8 does.

* `bind_eq_ok_iff`, `bind_eq_error_iff`: two loads in a row succeed exactly if each of them does, and
  fail as one of them does;
* `Contained`: loads that give no other problem than failures of the handbook;
* `loadText_of_wellFormed`, `loadText_of_malformed`: what loading prose ends with;
* `loadBytes_again`: what has been loaded last is loaded again;
* `loadBytes_of_same`: a file is loaded the same way from every disk that agrees in it.
-/

import Handbook.Bundled.Files
import Handbook.Proofs.Store.Cache
import Handbook.Proofs.Utf8.Fault
import Handbook.Render

namespace Handbook

/-! ### Steps -/

namespace Loading

variable {α β : Type} {first : Loading α} {next : α → Loading β} {cache after : Cache}

theorem bind_of_ok {value : α} (loaded : first cache = (.ok value, after)) :
    (first >>= next) cache = next value after := by
  show (match first cache with
    | (result, after) => ExceptT.bindCont next result after) = _
  rw [loaded]
  rfl

theorem bind_of_error {problem : Problem} (failed : first cache = (.error problem, after)) :
    (first >>= next) cache = (.error problem, after) := by
  show (match first cache with
    | (result, after) => ExceptT.bindCont next result after) = _
  rw [failed]
  rfl

/-- **Two loads succeed in a row exactly if each of them does**, the second one on the cache that the
first one leaves. -/
theorem bind_eq_ok_iff {result : β} :
    (first >>= next) cache = (.ok result, after) ↔ ∃ value between,
      first cache = (.ok value, between) ∧ next value between = (.ok result, after) := by
  cases loaded : first cache with
  | mk ended between =>
    cases ended with
    | ok value =>
      rw [bind_of_ok loaded]
      refine ⟨fun done => ⟨value, between, rfl, done⟩, ?_⟩
      rintro ⟨_, _, ⟨⟩, done⟩
      exact done
    | error problem =>
      rw [bind_of_error loaded]
      refine ⟨nofun, ?_⟩
      rintro ⟨_, _, ⟨⟩, _⟩

/-- **Two loads in a row fail as the first one does, or as the second one does after it.** -/
theorem bind_eq_error_iff {problem : Problem} :
    (first >>= next) cache = (.error problem, after) ↔
      first cache = (.error problem, after) ∨ ∃ value between,
        first cache = (.ok value, between) ∧ next value between = (.error problem, after) := by
  cases loaded : first cache with
  | mk ended between =>
    cases ended with
    | ok value =>
      rw [bind_of_ok loaded]
      refine ⟨fun failed => .inr ⟨value, between, rfl, failed⟩, ?_⟩
      rintro (⟨⟨⟩⟩ | ⟨_, _, ⟨⟩, failed⟩)
      exact failed
    | error problem' =>
      rw [bind_of_error loaded]
      constructor
      · rintro ⟨⟩
        exact .inl rfl
      · rintro (⟨⟨⟩⟩ | ⟨_, _, ⟨⟩, _⟩)
        rfl

theorem ofResult_apply (result : Except Failure α) (cache : Cache) :
    ofResult result cache = (result.mapError .failure, cache) := by
  cases result <;> rfl

theorem ofResult_eq_ok_iff {result : Except Failure α} {value : α} :
    ofResult result cache = (.ok value, after) ↔ result = .ok value ∧ cache = after := by
  rw [ofResult_apply, Prod.mk.injEq]
  cases result <;> simp [Except.mapError]

theorem ofResult_eq_error_iff {result : Except Failure α} {problem : Problem} :
    ofResult result cache = (.error problem, after) ↔
      ∃ cause, problem = .failure cause ∧ result = .error cause ∧ cache = after := by
  rw [ofResult_apply]
  cases result with
  | ok value =>
    refine iff_of_false nofun ?_
    rintro ⟨_, _, ⟨⟩, _⟩
  | error cause =>
    constructor
    · rintro ⟨⟩
      exact ⟨cause, rfl, rfl, rfl⟩
    · rintro ⟨_, rfl, ⟨⟩, rfl⟩
      rfl

/-- Loading that goes on after a result of the handbook ends as the results do. -/
theorem bind_of_result {result : Except Failure α} {step : α → Except Failure β}
    (ended : first cache = (result.mapError .failure, after))
    (rest : ∀ value, (next value after).1 = (step value).mapError .failure) :
    ((first >>= next) cache).1 = (result >>= step).mapError .failure := by
  cases result with
  | ok value =>
    rw [bind_of_ok ended]
    exact rest value
  | error cause =>
    rw [bind_of_error ended]
    rfl

/-! ### Problems -/

/-- Whether loading gives no other problem than failures of the handbook. -/
def Contained (load : Loading α) : Prop :=
  ∀ cache problem after, load cache = (.error problem, after) → ∃ cause, problem = .failure cause

theorem contained_pure (value : α) : Contained (pure value : Loading α) := by
  intro cache problem after failed
  change (Except.ok value, cache) = _ at failed
  cases failed

theorem Contained.bind (one : Contained first) (two : ∀ value, Contained (next value)) :
    Contained (first >>= next) := by
  intro cache problem after failed
  cases loaded : first cache with
  | mk ended between =>
    cases ended with
    | ok value =>
      rw [bind_of_ok loaded] at failed
      exact two value _ _ _ failed
    | error problem' =>
      rw [bind_of_error loaded, Prod.mk.injEq, Except.error.injEq] at failed
      obtain ⟨rfl, _⟩ := failed
      exact one _ _ _ loaded

theorem contained_ofResult (result : Except Failure α) : Contained (ofResult result) := by
  intro cache problem after failed
  rw [ofResult_apply, Prod.mk.injEq] at failed
  cases result with
  | ok value => exact absurd failed.1 (by simp [Except.mapError])
  | error cause => exact ⟨cause, (Except.error.inj failed.1).symm⟩

end Loading

/-! ### Files -/

namespace Library

variable {library : Library} {name : Text} {cache after : Cache} {bytes : Bytes}

/-- Whether a file is there. -/
def Has (library : Library) (name : Text) : Prop :=
  ∃ stored, library.disk.find? (library.pathOf name) = some stored

/-- Whether all files of the handbook are there, whatever they hold. -/
def Complete (library : Library) : Prop :=
  ∀ name ∈ Bundled.files.map Prod.fst, library.Has name

theorem readNode_eq_ok_iff {path : Path} {node : Disk.Node} :
    readNode path node = .ok bytes ↔ node = .file bytes := by
  cases node <;> simp [readNode]

theorem readNode_eq_error_iff {path : Path} {node : Disk.Node} {problem : Problem} :
    readNode path node = .error problem ↔
      node = .directory ∧ problem = .missingFile (.directory path) := by
  cases node <;> simp [readNode, eq_comm]

/-- A file is loaded exactly if something is there that the cache gives. -/
theorem loadBytes_eq_ok_iff :
    library.loadBytes name cache = (.ok bytes, after) ↔
      ∃ node, library.disk.node? (library.pathOf name) = some node ∧
        cache.fetch (library.pathOf name) (readNode (library.pathOf name) node) =
          (.ok bytes, after) := by
  cases found : library.disk.node? (library.pathOf name) with
  | none =>
    rw [loadBytes_missing cache found]
    refine ⟨nofun, ?_⟩
    rintro ⟨_, ⟨⟩, _⟩
  | some node =>
    rw [loadBytes_present cache found]
    refine ⟨fun fetched => ⟨node, rfl, fetched⟩, ?_⟩
    rintro ⟨_, ⟨⟩, fetched⟩
    exact fetched

/-- **A file fails to be loaded exactly if nothing is there**, and then the cache stays as it is, or
if a directory is there of which nothing is kept. -/
theorem loadBytes_eq_error_iff {problem : Problem} :
    library.loadBytes name cache = (.error problem, after) ↔
      (library.disk.node? (library.pathOf name) = none ∧
        problem = .missingFile (.nothing (library.pathOf name)) ∧ cache = after) ∨
      (library.disk.node? (library.pathOf name) = some .directory ∧
        cache.kept.lookup (library.pathOf name) = none ∧
        problem = .missingFile (.directory (library.pathOf name)) ∧
        { cache with misses := cache.misses + 1 } = after) := by
  cases found : library.disk.node? (library.pathOf name) with
  | none =>
    rw [loadBytes_missing cache found]
    constructor
    · rintro ⟨⟩
      exact .inl ⟨rfl, rfl, rfl⟩
    · rintro (⟨-, rfl, rfl⟩ | ⟨⟨⟩, -⟩)
      rfl
  | some node =>
    rw [loadBytes_present cache found, Cache.fetch_eq_error_iff, readNode_eq_error_iff]
    simp only [reduceCtorEq, false_and, false_or, Option.some.injEq]
    constructor
    · rintro ⟨fresh, ⟨directory, rfl⟩, same⟩
      exact ⟨directory, fresh, rfl, same⟩
    · rintro ⟨directory, fresh, rfl, same⟩
      exact ⟨fresh, ⟨directory, rfl⟩, same⟩

theorem Has.exists_loadBytes (has : library.Has name) (cache : Cache) :
    ∃ bytes after, library.loadBytes name cache = (.ok bytes, after) := by
  obtain ⟨stored, found⟩ := has
  rw [Disk.find?_eq_some_iff] at found
  cases ended : library.loadBytes name cache with
  | mk result after =>
    cases result with
    | ok bytes => exact ⟨bytes, after, rfl⟩
    | error problem =>
      rcases loadBytes_eq_error_iff.mp ended with ⟨missing, -⟩ | ⟨directory, -⟩
      · rw [found] at missing
        cases missing
      · rw [found] at directory
        cases directory

/-- What is not kept is loaded as the disk holds it. -/
theorem find?_of_loadBytes (loaded : library.loadBytes name cache = (.ok bytes, after))
    (fresh : cache.kept.lookup (library.pathOf name) = none) :
    library.disk.find? (library.pathOf name) = some bytes := by
  obtain ⟨node, found, fetched⟩ := loadBytes_eq_ok_iff.mp loaded
  rcases Cache.fetch_eq_ok_iff.mp fetched with ⟨kept, -⟩ | ⟨-, read, -⟩
  · rw [fresh] at kept
    cases kept
  · rw [Disk.find?_eq_some_iff, found, readNode_eq_ok_iff.mp read]

/-- **What has been loaded last is loaded again.** -/
theorem loadBytes_again (loaded : library.loadBytes name cache = (.ok bytes, after)) :
    ∃ later, library.loadBytes name after = (.ok bytes, later) := by
  obtain ⟨node, found, fetched⟩ := loadBytes_eq_ok_iff.mp loaded
  have kept := Cache.lookup_fetch fetched
  exact ⟨_, loadBytes_eq_ok_iff.mpr ⟨node, found, Cache.fetch_eq_ok_iff.mpr (.inl ⟨kept, rfl⟩)⟩⟩

theorem Has.contained_loadBytes (has : library.Has name) :
    Loading.Contained (library.loadBytes name) := by
  intro cache problem after failed
  obtain ⟨bytes, after', loaded⟩ := has.exists_loadBytes cache
  rw [loaded] at failed
  cases failed

theorem loadDocument_eq (kind : Kind) :
    library.loadDocument kind name =
      library.loadBytes name >>= fun bytes => Loading.ofResult (parse kind bytes) := by
  refine congrArg (library.loadBytes name >>= ·) (funext fun bytes => ?_)
  cases parse kind bytes <;> rfl

/-- **A document that is there gives no other problem than a failure of the handbook**, whatever its
file holds. -/
theorem Has.contained_loadDocument (has : library.Has name) (kind : Kind) :
    Loading.Contained (library.loadDocument kind name) := by
  rw [loadDocument_eq]
  exact has.contained_loadBytes.bind fun bytes => Loading.contained_ofResult _

theorem loadDocument_eq_ok_iff {kind : Kind} {document : kind.Document} :
    library.loadDocument kind name cache = (.ok document, after) ↔
      ∃ bytes, library.loadBytes name cache = (.ok bytes, after) ∧
        parse kind bytes = .ok document := by
  rw [loadDocument_eq, Loading.bind_eq_ok_iff]
  constructor
  · rintro ⟨bytes, between, loaded, ended⟩
    obtain ⟨parsed, rfl⟩ := Loading.ofResult_eq_ok_iff.mp ended
    exact ⟨bytes, loaded, parsed⟩
  · rintro ⟨bytes, loaded, parsed⟩
    exact ⟨bytes, after, loaded, Loading.ofResult_eq_ok_iff.mpr ⟨parsed, rfl⟩⟩

theorem loadDocument_of_loaded (loaded : library.loadBytes name cache = (.ok bytes, after))
    (kind : Kind) :
    library.loadDocument kind name cache = ((parse kind bytes).mapError .failure, after) := by
  rw [loadDocument_eq, Loading.bind_of_ok loaded, Loading.ofResult_apply]

theorem loadText_eq (loaded : library.loadBytes name cache = (.ok bytes, after)) :
    library.loadText name cache = ((Utf8.decode bytes).mapError .undecodable, after) := by
  unfold loadText
  rw [Loading.bind_of_ok loaded]
  cases Utf8.decode bytes <;> rfl

/-- **Prose is loaded as a text if it is well-formed**, and otherwise it is a problem. -/
theorem loadText_of_wellFormed (loaded : library.loadBytes name cache = (.ok bytes, after))
    (wellFormed : Utf8.WellFormed bytes) :
    ∃ text, library.loadText name cache = (.ok text, after) := by
  obtain ⟨text, decoded⟩ := Utf8.exists_decode_iff.mpr wellFormed
  exact ⟨text, by rw [loadText_eq loaded, decoded]; rfl⟩

theorem loadText_of_malformed (loaded : library.loadBytes name cache = (.ok bytes, after))
    (malformed : ¬ Utf8.WellFormed bytes) :
    ∃ fault, library.loadText name cache = (.error (.undecodable fault), after) := by
  cases decoded : Utf8.decode bytes with
  | ok text => exact absurd (Utf8.exists_decode_iff.mp ⟨text, decoded⟩) malformed
  | error fault => exact ⟨fault, by rw [loadText_eq loaded, decoded]; rfl⟩

/-! ### Files that stay -/

/-- **A file is loaded the same way from every disk that agrees in it.** -/
theorem loadBytes_of_same {disk : Disk}
    (same : disk.node? (library.pathOf name) = library.disk.node? (library.pathOf name)) :
    Library.loadBytes ⟨disk, library.root⟩ name = library.loadBytes name := by
  funext cache
  cases found : library.disk.node? (library.pathOf name) with
  | none =>
    rw [loadBytes_missing cache found]
    exact @loadBytes_missing ⟨disk, library.root⟩ name cache (same.trans found)
  | some node =>
    rw [loadBytes_present cache found]
    exact @loadBytes_present ⟨disk, library.root⟩ name node cache (same.trans found)

theorem loadText_of_same {disk : Disk}
    (same : disk.node? (library.pathOf name) = library.disk.node? (library.pathOf name)) :
    Library.loadText ⟨disk, library.root⟩ name = library.loadText name := by
  rw [loadText, loadText, loadBytes_of_same same]

theorem loadDocument_of_same {disk : Disk} (kind : Kind)
    (same : disk.node? (library.pathOf name) = library.disk.node? (library.pathOf name)) :
    Library.loadDocument ⟨disk, library.root⟩ kind name = library.loadDocument kind name := by
  rw [loadDocument, loadDocument, loadBytes_of_same same]

/-! ### Libraries with all files -/

/-- A library with all files of the handbook, and with some content in each of them. -/
def holding (contents : Text → Bytes) : Library where
  disk := ⟨Bundled.files.map fun file => (⟨.relative, [file.1]⟩, contents file.1), []⟩
  root := ⟨.relative, []⟩

theorem find?_holding (contents : Text → Bytes) : ∀ name ∈ Bundled.files.map Prod.fst,
    (holding contents).disk.find? ((holding contents).pathOf name) = some (contents name) := by
  have names : Bundled.files.map Prod.fst = [FileName.operators, FileName.functions,
    FileName.aggregates, FileName.scraping, FileName.cheatsheet, FileName.scrapingCheatsheet,
    FileName.functionsPrelude, FileName.aggregatesPrelude] := rfl
  simp only [names, List.forall_mem_cons]
  exact ⟨rfl, rfl, rfl, rfl, rfl, rfl, rfl, rfl, nofun⟩

theorem complete_holding (contents : Text → Bytes) : (holding contents).Complete :=
  fun name listed => ⟨_, find?_holding contents name listed⟩

end Library

end Handbook
