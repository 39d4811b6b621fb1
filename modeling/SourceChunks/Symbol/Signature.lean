-- SUMMARY: Headers of declarations: signature, parameters and return type as short texts.
import SourceChunks.Symbol.Name
import SourceChunks.Text.Grapheme

/-!
# Signatures

The header of a declaration as a text on one line: its signature up to the body, the texts of its
parameters, and its return type. Long headers are cut between grapheme clusters.
-/

namespace SourceChunks

namespace Signature

/-- The number of characters that a signature may have. -/
def maxLength : Nat := 200

/-- As many of the leading pieces as fit into `room` characters. -/
def fitting : (room : Nat) → List (List Char) → List (List Char)
  | _, [] => []
  | room, piece :: rest =>
    if piece.length ≤ room then piece :: fitting (room - piece.length) rest else []

/-- A header on one line, each run of white space written as one space, cut after the last of its
segments that fits. -/
def normalizeBy (segment : List Char → List (List Char)) (s : String) : String :=
  let line := Text.collapse s
  if line.length ≤ maxLength then line
  else .ofList (fitting maxLength (segment line.toList)).flatten

/-- A header on one line, cut between grapheme clusters. -/
def normalize (s : String) : String :=
  normalizeBy Text.Grapheme.clusters s

/-- The characters at the end of a header that open the body. -/
def opensBody (c : Char) : Bool :=
  c == '\x7b' || c == ':'

/-- A header without the mark that opens the body after it. -/
def dropOpening (s : String) : String :=
  Text.trimEnd (Text.dropEndWhile opensBody (Text.trimEnd s))

end Signature

namespace Node

/-- The header of a declaration: the text from the start of `n` up to the body of `owner`, or the
first line of `n` if no body follows its start. -/
def signature (source : String) (n owner : Node) : String :=
  let header := match (owner.field? "body").filter (n.start < ·.start) with
    | some body => Text.slice source n.start body.start
    | none => (Text.lines (n.text source)).headD ""
  Signature.normalize (Signature.dropOpening header)

/-- The texts of the parameters that a field holds, comments left out. A field that holds a single
identifier is one parameter. -/
def parameters (source : String) (n : Node) (field : String) : List String :=
  match n.field? field with
  | none => []
  | some list =>
    if list.isIdentifier then [list.text source]
    else ((list.namedChildren.filter (!·.isComment)).map
      fun child => Signature.normalize (child.text source)).filter (!·.isEmpty)

/-- The return type in the first of the fields that holds a text, without the arrow or colon in
front of it. -/
def returnType? (source : String) (n : Node) (fields : List String) : Option String :=
  (fields.findSome? (n.fieldText? source)).bind fun text =>
    let type := Text.trim (Text.dropStartWhile (· == ':') (Text.dropAll "->" text))
    if type.isEmpty then none else some type

end Node

end SourceChunks
