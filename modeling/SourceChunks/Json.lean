-- SUMMARY: JSON values, and how typed data is read from them.
import SourceChunks.Options

/-!
# JSON values

Values of the JSON data format. Numbers are integers of 64 bits or floating-point numbers. An
object keeps its members in order, repeated keys included; where a key is repeated, the last member
counts.

The second half reads typed data: a reader gives nothing if the value does not have the form it
expects.
-/

namespace SourceChunks

/-- A JSON value. -/
inductive Json where
  | null
  | bool (value : Bool)
  | integer (value : Int)
  | real (value : Float)
  | string (value : String)
  | array (items : List Json)
  | object (members : List (String × Json))
  deriving Inhabited

namespace Json

def get? (key : String) : Json → Option Json
  | object members => (members.reverse.find? (·.1 == key)).map (·.2)
  | _ => none

/-- Puts a value under a key into pairs with ascending keys, in the place of a value that is there
under the same key. -/
def insertPair (key : String) (value : α) : List (String × α) → List (String × α)
  | [] => [(key, value)]
  | (other, old) :: rest =>
    if key < other then (key, value) :: (other, old) :: rest
    else if key = other then (key, value) :: rest
    else (other, old) :: insertPair key value rest

/-- The members of an object as a map: the keys ascend, and the last member under a key counts. -/
def byKey (members : List (String × α)) : List (String × α) :=
  members.foldl (fun pairs (key, value) => insertPair key value pairs) []

/-! ## Reading -/

def toText? : Json → Option String
  | string value => some value
  | _ => none

/-- An integer from zero up to `limit`. -/
def toNat? (limit : Nat) : Json → Option Nat
  | integer value => if 0 ≤ value ∧ value ≤ limit then some value.toNat else none
  | _ => none

/-- A floating-point number; integers are numbers too. -/
def toReal? : Json → Option Float
  | real value => some value
  | integer value => some (Float.ofInt value)
  | _ => none

/-- A list whose items `read` accepts. -/
def toList? (read : Json → Option α) : Json → Option (List α)
  | array items => items.mapM read
  | _ => none

/-- An object whose members `read` accepts, as a map. -/
def toMap? (read : Json → Option α) : Json → Option (List (String × α))
  | object members => (byKey members).mapM fun (key, value) => (read value).map (key, ·)
  | _ => none

/-- A name out of a fixed set: a text, or an object with that one key and nothing under it. -/
def toTag? : Json → Option String
  | string value => some value
  | object members =>
    match byKey members with
    | [(key, null)] => some key
    | _ => none
  | _ => none

/-- The fields of a record: the members of an object, or the items of a list in the order of the
fields, of which there must be at least `least`. -/
def toRecord? (fields : List String) (least : Nat) : Json → Option (String → Option Json)
  | object members => some fun key => (object members).get? key
  | array items =>
    if least ≤ items.length ∧ items.length ≤ fields.length then
      some fun key => (fields.zip items).lookup key
    else none
  | _ => none

/-- A field that must be there. -/
def required (record : String → Option Json) (key : String) (read : Json → Option α) : Option α :=
  (record key).bind read

/-- A field that may be missing or null. -/
def optional (record : String → Option Json) (key : String) (read : Json → Option α) :
    Option (Option α) :=
  match record key with
  | none | some null => some none
  | some value => (read value).map some

/-! ## Writing -/

def ofNat (n : Nat) : Json := integer n

def ofTexts (texts : List String) : Json := array (texts.map string)

/-- A member for a value that may be absent: none, or one. -/
def member? (key : String) (write : α → Json) (value : Option α) : List (String × Json) :=
  (value.map fun value => (key, write value)).toList

end Json

end SourceChunks
