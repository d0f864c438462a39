/-
**Loading files.**

A library is a directory of a disk with the files of the handbook. Every load first looks whether
something is there; only then is its content taken from the cache or from the disk. A directory is
something, too, but it has no content to be read.

* `loadBytes_missing`: where nothing is there is a problem, and the cache stays as it is;
* `loadBytes_present`: what is there is fetched from the cache.
-/

import Handbook.Document.Parse
import Handbook.Problem
import Handbook.Store.Cache
import Handbook.Store.Disk

namespace Handbook

/-- Loading, which may fail with a problem and works on the cache even then. -/
abbrev Loading := ExceptT Problem (StateM Cache)

/-- A directory of a disk. -/
structure Library where
  disk : Disk
  root : Path

namespace Library

/-- The path of a file. -/
def pathOf (library : Library) (name : Text) : Path := library.root.join (.ofText name)

/-- The content of what stands at a path. -/
def readNode (path : Path) : Disk.Node → Except Problem Bytes
  | .file content => .ok content
  | .directory => .error (.missingFile (.directory path))

/-- The content of a file. -/
def loadBytes (library : Library) (name : Text) : Loading Bytes := fun cache =>
  let path := library.pathOf name
  match library.disk.node? path with
  | none => (.error (.missingFile (.nothing path)), cache)
  | some node => cache.fetch path (readNode path node)

/-- The text of a file. -/
def loadText (library : Library) (name : Text) : Loading Text := do
  match Utf8.decode (← library.loadBytes name) with
  | .ok text => return text
  | .error fault => throw (.undecodable fault)

/-- The document of a kind in a file. -/
def loadDocument (library : Library) (kind : Kind) (name : Text) : Loading kind.Document := do
  match parse kind (← library.loadBytes name) with
  | .ok document => return document
  | .error cause => throw (.failure cause)

theorem loadBytes_missing {library : Library} {name : Text} (cache : Cache)
    (missing : library.disk.node? (library.pathOf name) = none) :
    library.loadBytes name cache =
      (.error (.missingFile (.nothing (library.pathOf name))), cache) := by
  simp [loadBytes, missing]

theorem loadBytes_present {library : Library} {name : Text} {node : Disk.Node} (cache : Cache)
    (present : library.disk.node? (library.pathOf name) = some node) :
    library.loadBytes name cache =
      cache.fetch (library.pathOf name) (readNode (library.pathOf name) node) := by
  simp [loadBytes, present]

end Library

end Handbook
