-- SUMMARY: Chunks as JSON.
import SourceChunks.Chunk
import SourceChunks.Symbol.Form

/-!
# Chunks as JSON

The JSON form of chunks, written and read. Metadata that is absent is left out when written, and
may be missing or null when read.
-/

namespace SourceChunks

/-! ## Names of kinds -/

namespace BlockKind

def name : BlockKind → String
  | schema => "schema"
  | style => "style"
  | javascript => "javascript"

def ofName? : String → Option BlockKind
  | "schema" => some schema
  | "style" => some style
  | "javascript" => some javascript
  | _ => none

theorem ofName?_name (kind : BlockKind) : ofName? kind.name = some kind := by
  cases kind <;> rfl

end BlockKind

namespace ChunkKind

def name : ChunkKind → String
  | template => "template"
  | block => "block"
  | symbol kind => kind.name

def ofName? (name : String) : Option ChunkKind :=
  if name = "template" then some template
  else if name = "block" then some block
  else (SymbolKind.ofName? name).map symbol

theorem ofName?_name (kind : ChunkKind) : ofName? kind.name = some kind := by
  rcases kind with _ | _ | kind
  · rfl
  · rfl
  · cases kind <;> rfl

end ChunkKind

namespace ElementKind

def name : ElementKind → String
  | symbol kind => kind.name
  | block kind => kind.name

def ofName? (name : String) : Option ElementKind :=
  (SymbolKind.ofName? name).map symbol <|> (BlockKind.ofName? name).map block

theorem ofName?_name (kind : ElementKind) : ofName? kind.name = some kind := by
  rcases kind with kind | kind <;> cases kind <;> rfl

end ElementKind

/-! ## Call sites -/

namespace CallSite

def toJson (call : CallSite) : Json :=
  .object [("symbol", .string call.symbol), ("line", .ofNat call.line)]

def ofJson? (json : Json) : Option CallSite := do
  let record ← json.toRecord? ["symbol", "line"] 2
  return {
    symbol := ← Json.required record "symbol" Json.toText?
    line := ← Json.required record "line" (Json.toNat? maxCount) }

end CallSite

/-! ## Metadata -/

namespace Metadata

/-- The fields of metadata, in order; the first five are required. -/
def fields : List String :=
  ["file", "startLine", "endLine", "type", "language", "symbolName", "symbolType", "parentClass",
   "complexity", "cognitiveComplexity", "halsteadVolume", "halsteadDifficulty", "halsteadEffort",
   "halsteadBugs", "parameters", "signature", "returnType", "imports", "importedSymbols",
   "exports", "callSites"]

def namesToJson (names : List (String × List String)) : Json :=
  .object (names.map fun (path, names) => (path, .ofTexts names))

def toJson (m : Metadata) : Json :=
  .object
    ([("file", .string m.file),
      ("startLine", .ofNat m.startLine),
      ("endLine", .ofNat m.endLine),
      ("type", .string m.kind.name),
      ("language", .string m.language)]
    ++ Json.member? "symbolName" .string m.symbolName
    ++ Json.member? "symbolType" (fun kind => .string kind.name) m.symbolType
    ++ Json.member? "parentClass" .string m.parentClass
    ++ Json.member? "complexity" .ofNat m.complexity
    ++ Json.member? "cognitiveComplexity" .ofNat m.cognitiveComplexity
    ++ Json.member? "halsteadVolume" .real m.halsteadVolume
    ++ Json.member? "halsteadDifficulty" .real m.halsteadDifficulty
    ++ Json.member? "halsteadEffort" .real m.halsteadEffort
    ++ Json.member? "halsteadBugs" .real m.halsteadBugs
    ++ Json.member? "parameters" .ofTexts m.parameters
    ++ Json.member? "signature" .string m.signature
    ++ Json.member? "returnType" .string m.returnType
    ++ Json.member? "imports" .ofTexts m.imports
    ++ Json.member? "importedSymbols" namesToJson m.importedSymbols
    ++ Json.member? "exports" .ofTexts m.exports
    ++ Json.member? "callSites" (fun calls => .array (calls.map CallSite.toJson)) m.callSites)

def ofJson? (json : Json) : Option Metadata := do
  let record ← json.toRecord? fields 5
  let texts := Json.toList? Json.toText?
  return {
    file := ← Json.required record "file" Json.toText?
    startLine := ← Json.required record "startLine" (Json.toNat? maxCount)
    endLine := ← Json.required record "endLine" (Json.toNat? maxCount)
    kind := ← Json.required record "type" fun kind => kind.toTag?.bind ChunkKind.ofName?
    language := ← Json.required record "language" Json.toText?
    symbolName := ← Json.optional record "symbolName" Json.toText?
    symbolType :=
      ← Json.optional record "symbolType" fun kind => kind.toTag?.bind ElementKind.ofName?
    parentClass := ← Json.optional record "parentClass" Json.toText?
    complexity := ← Json.optional record "complexity" (Json.toNat? Complexity.maxScore)
    cognitiveComplexity :=
      ← Json.optional record "cognitiveComplexity" (Json.toNat? Complexity.maxScore)
    halsteadVolume := ← Json.optional record "halsteadVolume" Json.toReal?
    halsteadDifficulty := ← Json.optional record "halsteadDifficulty" Json.toReal?
    halsteadEffort := ← Json.optional record "halsteadEffort" Json.toReal?
    halsteadBugs := ← Json.optional record "halsteadBugs" Json.toReal?
    parameters := ← Json.optional record "parameters" texts
    signature := ← Json.optional record "signature" Json.toText?
    returnType := ← Json.optional record "returnType" Json.toText?
    imports := ← Json.optional record "imports" texts
    importedSymbols := ← Json.optional record "importedSymbols" (Json.toMap? texts)
    exports := ← Json.optional record "exports" texts
    callSites := ← Json.optional record "callSites" (Json.toList? CallSite.ofJson?) }

end Metadata

/-! ## Chunks -/

namespace Chunk

def toJson (c : Chunk) : Json :=
  .object [("content", .string c.content), ("metadata", c.metadata.toJson)]

def ofJson? (json : Json) : Option Chunk := do
  let record ← json.toRecord? ["content", "metadata"] 2
  return {
    content := ← Json.required record "content" Json.toText?
    metadata := ← Json.required record "metadata" Metadata.ofJson? }

end Chunk

end SourceChunks
