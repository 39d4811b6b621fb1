-- SUMMARY: Imports of a file: paths with the names they bring into scope, merged by path.

/-!
# Imports

An import is a path with the names it brings into scope. The imports of a file are kept merged:
each path once, in the order of first occurrence, and each name once under its path.
-/

namespace SourceChunks

/-- Appends a value unless it is already there. -/
def pushNew (values : List String) (value : String) : List String :=
  if values.contains value then values else values ++ [value]

/-- One import path and the names it brings into scope. -/
structure Import where
  path : String
  names : List String
  deriving Repr, DecidableEq, Inhabited

/-- Adds an import to a list merged by path. -/
def Import.addTo (new : Import) : List Import → List Import
  | [] => [{ new with names := new.names.foldl pushNew [] }]
  | old :: rest =>
    if old.path = new.path then { old with names := new.names.foldl pushNew old.names } :: rest
    else old :: new.addTo rest

/-- All imports of a file, merged by path. -/
structure FileImports where
  entries : List Import := []
  deriving Repr, DecidableEq, Inhabited

namespace FileImports

/-- Adds an import: its names go to the entry with its path, or to a new entry at the end. -/
def insert (imports : FileImports) (new : Import) : FileImports :=
  { entries := new.addTo imports.entries }

def ofList (entries : List Import) : FileImports :=
  entries.foldl insert {}

def isEmpty (imports : FileImports) : Bool :=
  imports.entries.isEmpty

/-- The import paths, in the order of first occurrence. -/
def paths (imports : FileImports) : List String :=
  imports.entries.map (·.path)

/-- The names imported from each path, in the order of the paths as texts. -/
def namesByPath (imports : FileImports) : List (String × List String) :=
  (imports.entries.map fun entry => (entry.path, entry.names)).mergeSort
    fun (p, _) (q, _) => decide (p ≤ q)

end FileImports

end SourceChunks
