/-
**Disks.**

A disk holds files at places, and directories that lead to them. It is a value: writing and deleting
give another disk. A path only finds what stands where it leads if all that it goes through are
directories, also those that it leaves again by going back. Writing makes directories; they stay when
files are deleted. No file is written where a directory is, or below another file.

* `node?_write_self`: a file that is written is found.
* `node?_write_of_ne`: whatever else was found before is still found.
-/

import Handbook.Store.Path
import Handbook.Utf8

namespace Handbook

/-- The files of a disk, by the places where they are, and the places of its directories. -/
structure Disk where
  files : List (Path × Bytes)
  directories : List Path

namespace Disk

/-- Whether a place is a directory. Where paths start, there always is one. -/
def isDirectory (disk : Disk) (place : Path) : Bool :=
  place.parts.isEmpty || disk.directories.contains place

/-- Whether all places that a path goes through are directories. -/
def reaches (disk : Disk) (path : Path) : Bool := path.stations.all disk.isDirectory

/-- What can stand somewhere: a file with its content, or a directory. -/
inductive Node where
  | file (content : Bytes)
  | directory

/-- What stands at a path, if anything does. -/
def node? (disk : Disk) (path : Path) : Option Node :=
  if disk.reaches path then
    if disk.isDirectory path.resolved then some .directory
    else (disk.files.lookup path.resolved).map .file
  else none

/-- The content of the file at a path, if a file is there. -/
def find? (disk : Disk) (path : Path) : Option Bytes :=
  match disk.node? path with
  | some (.file content) => some content
  | _ => none

theorem find?_eq_some_iff {disk : Disk} {path : Path} {content : Bytes} :
    disk.find? path = some content ↔ disk.node? path = some (.file content) := by
  rw [find?]
  cases disk.node? path with
  | none => simp
  | some node => cases node <;> simp

/-- The files that are not at a place. -/
def filesBeside (disk : Disk) (place : Path) : List (Path × Bytes) :=
  disk.files.filter fun file => file.1 != place

/-- A disk with a directory at a path, and with the directories that lead there. -/
def makeDirectory (disk : Disk) (path : Path) : Disk :=
  { disk with directories := path.stations ++ path.resolved :: disk.directories }

/-- Whether a place is that of a file. -/
def holdsFile (disk : Disk) (place : Path) : Bool :=
  !disk.isDirectory place && (disk.files.lookup place).isSome

/-- Whether a file can be written at a path: the place is not one of the directories that the path
goes through or any other, and no file is in the place of such a directory. -/
def admits (disk : Disk) (path : Path) : Bool :=
  !disk.isDirectory path.resolved && !path.stations.contains path.resolved &&
    path.stations.all (!disk.holdsFile ·)

/-- A disk with some content in the file at a path, and with the directories that lead there, if the
file can be written. -/
def write (disk : Disk) (path : Path) (content : Bytes) : Disk :=
  if disk.admits path then
    ⟨(path.resolved, content) :: disk.filesBeside path.resolved, path.stations ++ disk.directories⟩
  else disk

/-- A disk without the file at a path. -/
def delete (disk : Disk) (path : Path) : Disk :=
  if disk.reaches path then { disk with files := disk.filesBeside path.resolved } else disk

/-! ### What is found after writing -/

section

variable {disk : Disk} {path : Path} (content : Bytes)

theorem write_of_admits (admitted : disk.admits path = true) : disk.write path content =
    ⟨(path.resolved, content) :: disk.filesBeside path.resolved,
      path.stations ++ disk.directories⟩ := if_pos admitted

theorem isDirectory_write (admitted : disk.admits path = true) (place : Path) :
    (disk.write path content).isDirectory place =
      (disk.isDirectory place || path.stations.contains place) := by
  rw [write_of_admits content admitted, isDirectory, isDirectory, List.contains_append]
  ac_rfl

/-- **A file that is written is found.** -/
theorem node?_write_self (admitted : disk.admits path = true) :
    (disk.write path content).node? path = some (.file content) := by
  have there : (disk.write path content).reaches path = true := by
    simp +contextual [reaches, isDirectory_write content admitted]
  have file : (disk.write path content).isDirectory path.resolved = false := by
    rw [isDirectory_write content admitted]
    simp only [admits, Bool.and_eq_true, Bool.not_eq_true'] at admitted
    rw [admitted.1.1, admitted.1.2]
    rfl
  rw [node?, if_pos there, file, write_of_admits content admitted]
  simp

theorem lookup_filter_ne {key other : Path} (files : List (Path × Bytes))
    (different : key ≠ other) :
    (files.filter fun file => file.1 != other).lookup key = files.lookup key := by
  induction files with
  | nil => rfl
  | cons file others step =>
    obtain ⟨name, content⟩ := file
    by_cases gone : name = other
    · have unequal : (key == name) = false := by simpa [gone] using different
      simp [List.lookup_cons, gone, step, gone ▸ unequal]
    · simp [List.lookup_cons, gone, step]

theorem reaches_write {other : Path} (admitted : disk.admits path = true)
    (there : disk.reaches other = true) : (disk.write path content).reaches other = true := by
  simp only [reaches, List.all_eq_true] at there ⊢
  intro place station
  rw [isDirectory_write content admitted, there place station]
  rfl

/-- **Whatever else was found before is still found.** -/
theorem node?_write_of_ne {other : Path} {node : Node} (found : disk.node? other = some node)
    (different : other.resolved ≠ path.resolved) :
    (disk.write path content).node? other = some node := by
  by_cases admitted : disk.admits path = true
  · rw [node?, Option.ite_none_right_eq_some] at found
    obtain ⟨there, found⟩ := found
    rw [node?, if_pos (reaches_write content admitted there), isDirectory_write content admitted]
    by_cases directory : disk.isDirectory other.resolved = true
    · rw [if_pos directory] at found
      rw [directory, Bool.true_or, if_pos rfl, found]
    · rw [if_neg directory] at found
      obtain ⟨stored, held, same⟩ := Option.map_eq_some_iff.mp found
      have isFile : disk.holdsFile other.resolved = true := by
        rw [holdsFile, held, Bool.eq_false_iff.mpr directory]
        rfl
      -- the path goes through no file
      have aside : path.stations.contains other.resolved = false := by
        simp only [admits, Bool.and_eq_true, List.all_eq_true] at admitted
        refine Bool.eq_false_iff.mpr fun through => ?_
        have clear := admitted.2 _ (List.contains_iff_mem.mp through)
        rw [isFile] at clear
        cases clear
      have unequal : (other.resolved == path.resolved) = false := by simpa using different
      rw [Bool.eq_false_iff.mpr directory, aside, write_of_admits content admitted]
      simp [filesBeside, List.lookup_cons, unequal, lookup_filter_ne disk.files different, held,
        same]
  · rw [write, if_neg admitted]
    exact found

end

end Disk

end Handbook
