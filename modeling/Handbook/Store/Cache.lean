/-
**The cache of loaded files.**

What has been loaded is kept, up to thirty-two files, and the file that has not been loaded for the
longest time goes first. Content that is kept is not read again, even when the file changes. Reading
that fails is counted, and keeps nothing.
-/

import Handbook.Store.Path
import Handbook.Utf8

namespace Handbook

/-- The files that are kept, the last one loaded first, and the counts of loads that found their
file here and of those that did not. -/
structure Cache where
  kept : List (Path × Bytes)
  hits : Nat
  misses : Nat

namespace Cache

/-- A cache in which nothing has been loaded. -/
def empty : Cache := ⟨[], 0, 0⟩

/-- How many files are kept. -/
def capacity : Nat := 32

/-- The number of files that are kept. -/
def size (cache : Cache) : Nat := cache.kept.length

/-- The content of a path as the cache gives it, and the cache after that. Content that is not kept
is read, which may fail. -/
def fetch {Trouble : Type} (cache : Cache) (path : Path) (read : Except Trouble Bytes) :
    Except Trouble Bytes × Cache :=
  match cache.kept.lookup path, read with
  | some content, _ =>
    let others := cache.kept.filter fun file => file.1 != path
    (.ok content, ⟨(path, content) :: others, cache.hits + 1, cache.misses⟩)
  | none, .ok content =>
    (.ok content,
      ⟨((path, content) :: cache.kept).take capacity, cache.hits, cache.misses + 1⟩)
  | none, .error trouble => (.error trouble, { cache with misses := cache.misses + 1 })

end Cache

end Handbook
