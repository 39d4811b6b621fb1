-- SUMMARY: Symbols as JSON.
import SourceChunks.Complexity.Rules
import SourceChunks.Json
import SourceChunks.Symbol

/-!
# Symbols as JSON

The JSON form of symbols, written and read. A symbol is an object with all its fields; a container
or return type that is absent is written as null.
-/

namespace SourceChunks

namespace SymbolKind

def name : SymbolKind → String
  | function => "function"
  | method => "method"
  | classLike => "class"
  | interface => "interface"

def ofName? : String → Option SymbolKind
  | "function" => some function
  | "method" => some method
  | "class" => some classLike
  | "interface" => some interface
  | _ => none

theorem ofName?_name (kind : SymbolKind) : ofName? kind.name = some kind := by
  cases kind <;> rfl

end SymbolKind

namespace Symbol

def fields : List String :=
  ["name", "kind", "startLine", "endLine", "parentClass", "signature", "parameters", "returnType",
   "complexity", "cognitiveComplexity"]

def toJson (s : Symbol) : Json :=
  .object
    [("name", .string s.name),
     ("kind", .string s.kind.name),
     ("startLine", .ofNat s.startLine),
     ("endLine", .ofNat s.endLine),
     ("parentClass", (s.parentClass.map Json.string).getD .null),
     ("signature", .string s.signature),
     ("parameters", .ofTexts s.parameters),
     ("returnType", (s.returnType.map Json.string).getD .null),
     ("complexity", .ofNat s.complexity),
     ("cognitiveComplexity", .ofNat s.cognitiveComplexity)]

def ofJson? (json : Json) : Option Symbol := do
  let record ← json.toRecord? fields fields.length
  return {
    name := ← Json.required record "name" Json.toText?
    kind := ← Json.required record "kind" fun kind => kind.toTag?.bind SymbolKind.ofName?
    startLine := ← Json.required record "startLine" (Json.toNat? maxCount)
    endLine := ← Json.required record "endLine" (Json.toNat? maxCount)
    parentClass := ← Json.optional record "parentClass" Json.toText?
    signature := ← Json.required record "signature" Json.toText?
    parameters := ← Json.required record "parameters" (Json.toList? Json.toText?)
    returnType := ← Json.optional record "returnType" Json.toText?
    complexity := ← Json.required record "complexity" (Json.toNat? Complexity.maxScore)
    cognitiveComplexity :=
      ← Json.required record "cognitiveComplexity" (Json.toNat? Complexity.maxScore) }

end Symbol

end SourceChunks
