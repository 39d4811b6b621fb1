-- SUMMARY: Options in JSON and TOML texts.
import SourceChunks.Json.Reader
import SourceChunks.Toml.Reader

/-!
# Options in data formats

Options as a JSON object or list and as a TOML document. Keys that are missing leave the defaults,
and unknown keys do not count. Options from a document are validated.
-/

namespace SourceChunks.Options

def fields : List String := ["chunkSize", "chunkOverlap"]

/-- A count under a key, or the default if the key is missing. -/
def countOr? (default : Nat) (value : Option Json) : Option Nat :=
  match value with
  | none => some default
  | some value => value.toNat? maxCount

/-- No field is given twice. -/
def hasRepeatedField : Json → Bool
  | .object members => fields.any fun field => 1 < members.countP (·.1 == field)
  | _ => false

def ofJson? (json : Json) : Option Options := do
  let record ← json.toRecord? fields 0
  if hasRepeatedField json then none
  let defaults : Options := {}
  return {
    chunkSize := ← countOr? defaults.chunkSize (record "chunkSize")
    chunkOverlap := ← countOr? defaults.chunkOverlap (record "chunkOverlap") }

/-- The options in a JSON text; values under unknown keys are only skimmed. -/
def ofJsonText? (text : String) : Option Options :=
  (Json.skim? text).bind ofJson?

/-- A count under a key of a TOML table, or the default if the key is missing. -/
def tomlCountOr? (default : Nat) (value : Option Toml) : Option Nat :=
  match value with
  | none => some default
  | some (.integer value) => if 0 ≤ value then some value.toNat else none
  | some _ => none

def ofTomlText? (text : String) : Option Options := do
  let root ← Toml.parse? text
  let defaults : Options := {}
  return {
    chunkSize := ← tomlCountOr? defaults.chunkSize (root.get? "chunkSize")
    chunkOverlap := ← tomlCountOr? defaults.chunkOverlap (root.get? "chunkOverlap") }

/-- The options in a TOML document, validated. -/
def ofToml (text : String) : Except Error Options :=
  match ofTomlText? text with
  | some options => options.validate
  | none => .error (.invalidOptions .unreadable)

end SourceChunks.Options
