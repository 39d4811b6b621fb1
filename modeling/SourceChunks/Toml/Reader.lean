-- SUMMARY: Reading TOML documents: values, keys with values, headers.
import SourceChunks.Toml.Scalar

/-!
# Reading TOML documents

A document is a list of lines: blank ones, keys with values, and headers, which open the table that
the keys after them belong to. Arrays may span lines; tables in braces may not.
-/

namespace SourceChunks.Toml

/-! ## Values -/

/-- A value that is neither an array nor a table. -/
def scalar? (cs : List Char) : Option (Toml × List Char) :=
  match cs with
  | 't' :: 'r' :: 'u' :: 'e' :: rest => some (.boolean true, rest)
  | 'f' :: 'a' :: 'l' :: 's' :: 'e' :: rest => some (.boolean false, rest)
  | cs =>
    (string? cs).map (fun (value, rest) => (.string value, rest))
      <|> (dateTime? cs).map (fun (text, rest) => (.dateTime text, rest))
      <|> (float? cs).map (fun (value, rest) => (.float value, rest))
      <|> (integer? cs).map fun (value, rest) => (.integer value, rest)

mutual

/-- A value inside `depth` arrays and tables. -/
def value? (depth : Nat) : (fuel : Nat) → List Char → Option (Toml × List Char)
  | 0, _ => none
  | fuel + 1, '[' :: cs =>
    if depth < maxDepth then
      match skipBlank cs with
      | ']' :: rest => some (.array [], rest)
      | _ => (items? (depth + 1) fuel cs).map fun (items, rest) => (.array items, rest)
    else none
  | fuel + 1, '\x7b' :: cs =>
    if depth < maxDepth then
      match skipSpaces cs with
      | '\x7d' :: rest => some (.table .inline [], rest)
      | _ => members? (depth + 1) fuel (.table .inline []) cs
    else none
  | _ + 1, cs => scalar? cs

/-- The items of an array up to its end, at least one; a comma may follow the last one. -/
def items? (depth : Nat) : (fuel : Nat) → List Char → Option (List Toml × List Char)
  | 0, _ => none
  | fuel + 1, cs =>
    match value? depth fuel (skipBlank cs) with
    | none => none
    | some (item, rest) =>
      match skipBlank rest with
      | ']' :: rest => some ([item], rest)
      | ',' :: rest =>
        match skipBlank rest with
        | ']' :: rest => some ([item], rest)
        | _ => (items? depth fuel rest).map fun (items, rest) => (item :: items, rest)
      | _ => none

/-- The members of a table in braces up to its end, at least one, added to those read so far. -/
def members? (depth : Nat) : (fuel : Nat) → Toml → List Char → Option (Toml × List Char)
  | 0, _, _ => none
  | fuel + 1, base, cs =>
    match key? cs with
    | some ((path, key), '=' :: rest) =>
      match value? depth fuel (skipSpaces rest) with
      | none => none
      | some (value, rest) =>
        match addDotted? path key value base with
        | none => none
        | some result =>
          match skipSpaces rest with
          | '\x7d' :: rest => some (result, rest)
          | ',' :: rest => members? depth fuel result rest
          | _ => none
    | _ => none

end

/-! ## Documents -/

/-- A document in the making: its root table, and the path of the table that keys belong to. -/
structure Document where
  root : Toml := .table .header []
  current : List String := []
  deriving Inhabited

namespace Document

def keyValue? (document : Document) (cs : List Char) : Option (Document × List Char) := do
  let ((path, key), rest) ← key? cs
  let rest ← afterChar? '=' rest
  let (value, rest) ← value? 0 (cs.length + 1) (skipSpaces rest)
  let rest ← nextLine? rest
  let root ← changeAt false (addDotted? path key value) document.current document.root
  return ({ document with root }, rest)

/-- Reads the header of a table after its opening bracket. -/
def tableHeader? (document : Document) (cs : List Char) : Option (Document × List Char) := do
  let ((path, key), rest) ← key? cs
  let rest ← nextLine? (← afterChar? ']' rest)
  let root ← changeAt false (openTable? key) path document.root
  return ({ root, current := path ++ [key] }, rest)

/-- Reads the header of an array of tables after its opening brackets. -/
def arrayHeader? (document : Document) (cs : List Char) : Option (Document × List Char) := do
  let ((path, key), rest) ← key? cs
  let rest ← nextLine? (← afterChar? ']' (← afterChar? ']' rest))
  let root ← changeAt false (openArrayTable? key) path document.root
  return ({ root, current := path ++ [key] }, rest)

/-- Reads the lines of a document, of which there are at most `fuel`. -/
def lines? : (fuel : Nat) → Document → List Char → Option Document
  | 0, _, _ => none
  | fuel + 1, document, cs =>
    match skipSpaces cs with
    | [] => some document
    | '[' :: '[' :: rest =>
      (document.arrayHeader? rest).bind fun (document, rest) => lines? fuel document rest
    | '[' :: rest =>
      (document.tableHeader? rest).bind fun (document, rest) => lines? fuel document rest
    | '#' :: rest => (nextLine? ('#' :: rest)).bind (lines? fuel document)
    | rest =>
      match afterLineEnd? rest with
      | some rest => lines? fuel document rest
      | none => (document.keyValue? rest).bind fun (document, rest) => lines? fuel document rest

end Document

/-- The root table of a TOML document. A byte order mark in front of it does not count. -/
def parse? (text : String) : Option Toml :=
  let cs := match text.toList with
    | '\uFEFF' :: rest => rest
    | cs => cs
  (Document.lines? (cs.length + 1) {} cs).map (·.root)

end SourceChunks.Toml
