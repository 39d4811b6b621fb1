-- SUMMARY: TOML values, and how headers and keys build up the tables of a document.

/-!
# TOML values

Values of the TOML data format, and the rules by which a document builds its tables: what a header
or a dotted key may extend, and what may be defined only once.
-/

namespace SourceChunks

/-- How a table came about. -/
inductive TomlTable where
  /-- By a header of its own, or as the root. -/
  | header
  /-- As a parent in a header. -/
  | implied
  /-- As a parent in a dotted key. -/
  | dotted
  /-- In braces; such a table is complete. -/
  | inline
  deriving Repr, DecidableEq, Inhabited

/-- A TOML value. -/
inductive Toml where
  | string (value : String)
  | integer (value : Int)
  | float (value : Float)
  | boolean (value : Bool)
  /-- A date, a time or both, as written. -/
  | dateTime (text : String)
  | array (items : List Toml)
  | table (origin : TomlTable) (entries : List (String × Toml))
  /-- An array of tables that headers build up. -/
  | tables (items : List Toml)
  deriving Inhabited

namespace Toml

def replaceEntry (key : String) (value : Toml) (entries : List (String × Toml)) :
    List (String × Toml) :=
  entries.map fun entry => if entry.1 == key then (key, value) else entry

/-- Applies `change` to the table at the end of a path, creating the tables on the way that are not
there. A path goes to the last of an array of tables. The keys of a dotted key may not lead through
tables with a header, and nothing leads into a value. -/
def changeAt (dotted : Bool) (change : Toml → Option Toml) : List String → Toml → Option Toml
  | [], value => change value
  | key :: path, table origin entries =>
    match entries.lookup key with
    | none =>
      (changeAt dotted change path (table (if dotted then .dotted else .implied) [])).map
        fun child => table origin (entries ++ [(key, child)])
    | some (table childOrigin childEntries) =>
      if childOrigin = .inline ∨ (dotted ∧ childOrigin = .header) then none
      else (changeAt dotted change path (table childOrigin childEntries)).map
        fun child => table origin (replaceEntry key child entries)
    | some (tables items) =>
      items.getLast?.bind fun last =>
        (changeAt dotted change path last).map fun child =>
          table origin (replaceEntry key (tables (items.dropLast ++ [child])) entries)
    | some _ => none
  | _ :: _, _ => none

/-- Adds a key with its value to a table that does not have it. -/
def addEntry? (key : String) (value : Toml) : Toml → Option Toml
  | table origin entries =>
    if (entries.lookup key).isSome then none else some (table origin (entries ++ [(key, value)]))
  | _ => none

def isDotted : Toml → Bool
  | table .dotted _ => true
  | _ => false

/-- Adds a dotted key with its value below a table. The last table on the way must be one that
dotted keys made. -/
def addDotted? (path : List String) (key : String) (value : Toml) (base : Toml) : Option Toml :=
  changeAt true
    (fun parent => if parent.isDotted == path.isEmpty then none else addEntry? key value parent)
    path base

/-- Opens the table of a header: a new one, or one that was only implied so far. -/
def openTable? (key : String) : Toml → Option Toml
  | table origin entries =>
    match entries.lookup key with
    | none => some (table origin (entries ++ [(key, table .header [])]))
    | some (table .implied inner) =>
      some (table origin (entries.filter (·.1 != key) ++ [(key, table .header inner)]))
    | some _ => none
  | _ => none

/-- Opens a new table at the end of the array of tables of a header. -/
def openArrayTable? (key : String) : Toml → Option Toml
  | table origin entries =>
    match entries.lookup key with
    | none => some (table origin (entries ++ [(key, tables [table .header []])]))
    | some (tables items) =>
      some (table origin (replaceEntry key (tables (items ++ [table .header []])) entries))
    | some _ => none
  | _ => none

def get? (key : String) : Toml → Option Toml
  | table _ entries => entries.lookup key
  | _ => none

end Toml

end SourceChunks
