-- SUMMARY: The JSON forms of symbols and chunks lose nothing: what is written is read back, and reading what was read changes nothing.
import Mathlib.Tactic.MkIffOfInductiveProp
import SourceChunks.Chunk.Form
import SourceChunks.Proofs.Json

/-!
# JSON forms of symbols and chunks

Each record is described twice: by its cells, which say what is written under which key, and by what
reading finds under the keys. The two meet key by key. Numbers must be in the range of their fields
and maps in the order of their keys, which holds of everything that is read.
-/

namespace SourceChunks

open Json (Lossless)

/-! ## Symbols -/

namespace Symbol

/-- The numbers of a symbol are in range. -/
structure Fits (s : Symbol) : Prop where
  startLine : s.startLine ≤ maxCount
  endLine : s.endLine ≤ maxCount
  complexity : s.complexity ≤ Complexity.maxScore
  cognitiveComplexity : s.cognitiveComplexity ≤ Complexity.maxScore

/-- What is written of a symbol, key by key. -/
def cells (s : Symbol) : List (String × Option Json) :=
  [("name", some (.string s.name)),
   ("kind", some (.string s.kind.name)),
   ("startLine", some (.ofNat s.startLine)),
   ("endLine", some (.ofNat s.endLine)),
   ("parentClass", some ((s.parentClass.map Json.string).getD .null)),
   ("signature", some (.string s.signature)),
   ("parameters", some (.ofTexts s.parameters)),
   ("returnType", some ((s.returnType.map Json.string).getD .null)),
   ("complexity", some (.ofNat s.complexity)),
   ("cognitiveComplexity", some (.ofNat s.cognitiveComplexity))]

theorem keys_cells (s : Symbol) : s.cells.map (·.1) = fields := rfl

theorem toJson_eq (s : Symbol) : s.toJson = .object (Json.present s.cells) := rfl

/-- What reading a symbol finds in a record. -/
@[mk_iff]
structure ReadFrom (record : String → Option Json) (s : Symbol) : Prop where
  name : Json.required record "name" Json.toText? = some s.name
  kind : (Json.required record "kind" fun kind => kind.toTag?.bind SymbolKind.ofName?) = some s.kind
  startLine : Json.required record "startLine" (Json.toNat? maxCount) = some s.startLine
  endLine : Json.required record "endLine" (Json.toNat? maxCount) = some s.endLine
  parentClass : Json.optional record "parentClass" Json.toText? = some s.parentClass
  signature : Json.required record "signature" Json.toText? = some s.signature
  parameters : Json.required record "parameters" (Json.toList? Json.toText?) = some s.parameters
  returnType : Json.optional record "returnType" Json.toText? = some s.returnType
  complexity :
    Json.required record "complexity" (Json.toNat? Complexity.maxScore) = some s.complexity
  cognitiveComplexity :
    Json.required record "cognitiveComplexity" (Json.toNat? Complexity.maxScore) =
      some s.cognitiveComplexity

theorem ofJson?_eq_some_iff {json : Json} {s : Symbol} :
    ofJson? json = some s ↔
      ∃ record, json.toRecord? fields fields.length = some record ∧ s.ReadFrom record := by
  constructor
  · intro h
    simp only [ofJson?, ↓Json.bind_eq_some_iff, Option.pure_def, Option.some.injEq] at h
    obtain ⟨record, hrecord, _, h₁, _, h₂, _, h₃, _, h₄, _, h₅, _, h₆, _, h₇, _, h₈, _, h₉, _, h₁₀,
      rfl⟩ := h
    exact ⟨record, hrecord, ⟨h₁, h₂, h₃, h₄, h₅, h₆, h₇, h₈, h₉, h₁₀⟩⟩
  · rintro ⟨record, hrecord, h⟩
    rw [ofJson?, hrecord, Option.bind_eq_bind, Option.bind_some, h.name, h.kind, h.startLine,
      h.endLine, h.parentClass, h.signature, h.parameters, h.returnType, h.complexity,
      h.cognitiveComplexity]
    rfl

theorem lossless : Lossless Fits toJson ofJson? where
  read_write s hs := by
    have hrecord := Json.toRecord?_present s.keys_cells (by decide) fields.length
    rw [← toJson_eq] at hrecord
    refine ofJson?_eq_some_iff.2 ⟨_, hrecord, ?_⟩
    exact {
      name := Json.lossless_text.required rfl trivial
      kind := (Json.lossless_tag SymbolKind.ofName?_name).required rfl trivial
      startLine := (Json.lossless_nat _).required rfl hs.startLine
      endLine := (Json.lossless_nat _).required rfl hs.endLine
      -- what a symbol lacks is written as null
      parentClass := Json.lossless_text.optional (.inr rfl) fun _ _ => trivial
      signature := Json.lossless_text.required rfl trivial
      parameters := Json.lossless_text.list.required rfl fun _ _ => trivial
      returnType := Json.lossless_text.optional (.inr rfl) fun _ _ => trivial
      complexity := (Json.lossless_nat _).required rfl hs.complexity
      cognitiveComplexity := (Json.lossless_nat _).required rfl hs.cognitiveComplexity }
  fits json s h := by
    obtain ⟨record, -, h⟩ := ofJson?_eq_some_iff.1 h
    exact {
      startLine := (Json.lossless_nat _).fits_required h.startLine
      endLine := (Json.lossless_nat _).fits_required h.endLine
      complexity := (Json.lossless_nat _).fits_required h.complexity
      cognitiveComplexity := (Json.lossless_nat _).fits_required h.cognitiveComplexity }
  ne_null _ := nofun

theorem readsFields : Json.ReadsFields fields fields.length ofJson? ReadFrom where
  eq_some_iff := ofJson?_eq_some_iff
  congr h := by
    simp (disch := decide) only [readFrom_iff, Json.required_eq_held, Json.optional_eq_held, h]

end Symbol

/-! ## Call sites -/

namespace CallSite

/-- The line of a call site is in range. -/
def Fits (call : CallSite) : Prop := call.line ≤ maxCount

theorem ofJson?_eq_some_iff {json : Json} {call : CallSite} :
    ofJson? json = some call ↔
      ∃ record, json.toRecord? ["symbol", "line"] 2 = some record ∧
        Json.required record "symbol" Json.toText? = some call.symbol ∧
        Json.required record "line" (Json.toNat? maxCount) = some call.line := by
  constructor
  · intro h
    simp only [ofJson?, ↓Json.bind_eq_some_iff, Option.pure_def, Option.some.injEq] at h
    obtain ⟨record, hrecord, _, hsymbol, _, hline, rfl⟩ := h
    exact ⟨record, hrecord, hsymbol, hline⟩
  · rintro ⟨record, hrecord, hsymbol, hline⟩
    simp only [ofJson?, hrecord, hsymbol, hline, Option.bind_eq_bind, Option.bind_some,
      Option.pure_def]

theorem lossless : Lossless Fits toJson ofJson? where
  read_write call hcall :=
    ofJson?_eq_some_iff.2 ⟨_, rfl, Json.lossless_text.required rfl trivial,
      (Json.lossless_nat _).required rfl hcall⟩
  fits json call h := by
    obtain ⟨record, -, -, hline⟩ := ofJson?_eq_some_iff.1 h
    exact (Json.lossless_nat _).fits_required hline
  ne_null _ := nofun

end CallSite

/-! ## Metadata -/

namespace Metadata

/-- The numbers of metadata are in range, and the map in it is ordered by its keys. -/
structure Fits (m : Metadata) : Prop where
  startLine : m.startLine ≤ maxCount
  endLine : m.endLine ≤ maxCount
  complexity : ∀ score ∈ m.complexity, score ≤ Complexity.maxScore
  cognitiveComplexity : ∀ score ∈ m.cognitiveComplexity, score ≤ Complexity.maxScore
  importedSymbols : ∀ names ∈ m.importedSymbols, Json.Ascending names
  callSites : ∀ calls ∈ m.callSites, ∀ call ∈ calls, call.Fits

/-- What is written of metadata, key by key. -/
def cells (m : Metadata) : List (String × Option Json) :=
  [("file", some (.string m.file)),
   ("startLine", some (.ofNat m.startLine)),
   ("endLine", some (.ofNat m.endLine)),
   ("type", some (.string m.kind.name)),
   ("language", some (.string m.language)),
   ("symbolName", m.symbolName.map .string),
   ("symbolType", m.symbolType.map fun kind => .string kind.name),
   ("parentClass", m.parentClass.map .string),
   ("complexity", m.complexity.map .ofNat),
   ("cognitiveComplexity", m.cognitiveComplexity.map .ofNat),
   ("halsteadVolume", m.halsteadVolume.map .real),
   ("halsteadDifficulty", m.halsteadDifficulty.map .real),
   ("halsteadEffort", m.halsteadEffort.map .real),
   ("halsteadBugs", m.halsteadBugs.map .real),
   ("parameters", m.parameters.map .ofTexts),
   ("signature", m.signature.map .string),
   ("returnType", m.returnType.map .string),
   ("imports", m.imports.map .ofTexts),
   ("importedSymbols", m.importedSymbols.map namesToJson),
   ("exports", m.exports.map .ofTexts),
   ("callSites", m.callSites.map fun calls => .array (calls.map CallSite.toJson))]

theorem keys_cells (m : Metadata) : m.cells.map (·.1) = fields := rfl

theorem toJson_eq (m : Metadata) : m.toJson = .object (Json.present m.cells) := by
  simp only [toJson, cells, Json.present_cons_some, Json.present_cons_map, Json.present_nil,
    List.append_assoc, List.cons_append, List.nil_append, List.append_nil]

/-- What reading metadata finds in a record. -/
@[mk_iff]
structure ReadFrom (record : String → Option Json) (m : Metadata) : Prop where
  file : Json.required record "file" Json.toText? = some m.file
  startLine : Json.required record "startLine" (Json.toNat? maxCount) = some m.startLine
  endLine : Json.required record "endLine" (Json.toNat? maxCount) = some m.endLine
  kind : (Json.required record "type" fun kind => kind.toTag?.bind ChunkKind.ofName?) = some m.kind
  language : Json.required record "language" Json.toText? = some m.language
  symbolName : Json.optional record "symbolName" Json.toText? = some m.symbolName
  symbolType :
    (Json.optional record "symbolType" fun kind => kind.toTag?.bind ElementKind.ofName?) =
      some m.symbolType
  parentClass : Json.optional record "parentClass" Json.toText? = some m.parentClass
  complexity :
    Json.optional record "complexity" (Json.toNat? Complexity.maxScore) = some m.complexity
  cognitiveComplexity :
    Json.optional record "cognitiveComplexity" (Json.toNat? Complexity.maxScore) =
      some m.cognitiveComplexity
  halsteadVolume : Json.optional record "halsteadVolume" Json.toReal? = some m.halsteadVolume
  halsteadDifficulty :
    Json.optional record "halsteadDifficulty" Json.toReal? = some m.halsteadDifficulty
  halsteadEffort : Json.optional record "halsteadEffort" Json.toReal? = some m.halsteadEffort
  halsteadBugs : Json.optional record "halsteadBugs" Json.toReal? = some m.halsteadBugs
  parameters : Json.optional record "parameters" (Json.toList? Json.toText?) = some m.parameters
  signature : Json.optional record "signature" Json.toText? = some m.signature
  returnType : Json.optional record "returnType" Json.toText? = some m.returnType
  imports : Json.optional record "imports" (Json.toList? Json.toText?) = some m.imports
  importedSymbols :
    Json.optional record "importedSymbols" (Json.toMap? (Json.toList? Json.toText?)) =
      some m.importedSymbols
  exports : Json.optional record "exports" (Json.toList? Json.toText?) = some m.exports
  callSites :
    Json.optional record "callSites" (Json.toList? CallSite.ofJson?) = some m.callSites

theorem ofJson?_eq_some_iff {json : Json} {m : Metadata} :
    ofJson? json = some m ↔
      ∃ record, json.toRecord? fields 5 = some record ∧ m.ReadFrom record := by
  constructor
  · intro h
    -- from the first step on: taking the last steps first would go over them once more at each step
    simp only [ofJson?, ↓Json.bind_eq_some_iff, Option.pure_def, Option.some.injEq] at h
    obtain ⟨record, hrecord, _, h₁, _, h₂, _, h₃, _, h₄, _, h₅, _, h₆, _, h₇, _, h₈, _, h₉, _, h₁₀,
      _, h₁₁, _, h₁₂, _, h₁₃, _, h₁₄, _, h₁₅, _, h₁₆, _, h₁₇, _, h₁₈, _, h₁₉, _, h₂₀, _, h₂₁,
      rfl⟩ := h
    exact ⟨record, hrecord, ⟨h₁, h₂, h₃, h₄, h₅, h₆, h₇, h₈, h₉, h₁₀, h₁₁, h₁₂, h₁₃, h₁₄, h₁₅, h₁₆,
      h₁₇, h₁₈, h₁₉, h₂₀, h₂₁⟩⟩
  · rintro ⟨record, hrecord, h⟩
    rw [ofJson?, hrecord, Option.bind_eq_bind, Option.bind_some]
    dsimp only
    rw [h.file, h.startLine, h.endLine, h.kind, h.language, h.symbolName, h.symbolType,
      h.parentClass, h.complexity, h.cognitiveComplexity, h.halsteadVolume, h.halsteadDifficulty,
      h.halsteadEffort, h.halsteadBugs, h.parameters, h.signature, h.returnType, h.imports,
      h.importedSymbols, h.exports, h.callSites]
    rfl

theorem lossless_names :
    Lossless Json.Ascending namesToJson (Json.toMap? (Json.toList? Json.toText?)) where
  read_write names hnames := Json.lossless_text.list.map.read_write names ⟨hnames, by simp⟩
  fits json names h := (Json.lossless_text.list.map.fits json names h).1
  ne_null _ := nofun

theorem lossless : Lossless Fits toJson ofJson? where
  read_write m hm := by
    have hrecord := Json.toRecord?_present m.keys_cells (by decide) 5
    rw [← toJson_eq] at hrecord
    refine ofJson?_eq_some_iff.2 ⟨_, hrecord, ?_⟩
    exact {
      file := Json.lossless_text.required rfl trivial
      startLine := (Json.lossless_nat _).required rfl hm.startLine
      endLine := (Json.lossless_nat _).required rfl hm.endLine
      kind := (Json.lossless_tag ChunkKind.ofName?_name).required rfl trivial
      language := Json.lossless_text.required rfl trivial
      -- what metadata lacks is not written
      symbolName := Json.lossless_text.optional (.inl rfl) fun _ _ => trivial
      symbolType :=
        (Json.lossless_tag ElementKind.ofName?_name).optional (.inl rfl) fun _ _ => trivial
      parentClass := Json.lossless_text.optional (.inl rfl) fun _ _ => trivial
      complexity := (Json.lossless_nat _).optional (.inl rfl) hm.complexity
      cognitiveComplexity := (Json.lossless_nat _).optional (.inl rfl) hm.cognitiveComplexity
      halsteadVolume := Json.lossless_real.optional (.inl rfl) fun _ _ => trivial
      halsteadDifficulty := Json.lossless_real.optional (.inl rfl) fun _ _ => trivial
      halsteadEffort := Json.lossless_real.optional (.inl rfl) fun _ _ => trivial
      halsteadBugs := Json.lossless_real.optional (.inl rfl) fun _ _ => trivial
      parameters := Json.lossless_text.list.optional (.inl rfl) fun _ _ _ _ => trivial
      signature := Json.lossless_text.optional (.inl rfl) fun _ _ => trivial
      returnType := Json.lossless_text.optional (.inl rfl) fun _ _ => trivial
      imports := Json.lossless_text.list.optional (.inl rfl) fun _ _ _ _ => trivial
      importedSymbols := lossless_names.optional (.inl rfl) hm.importedSymbols
      exports := Json.lossless_text.list.optional (.inl rfl) fun _ _ _ _ => trivial
      callSites := CallSite.lossless.list.optional (.inl rfl) hm.callSites }
  fits json m h := by
    obtain ⟨record, -, h⟩ := ofJson?_eq_some_iff.1 h
    exact {
      startLine := (Json.lossless_nat _).fits_required h.startLine
      endLine := (Json.lossless_nat _).fits_required h.endLine
      complexity := (Json.lossless_nat _).fits_optional h.complexity
      cognitiveComplexity := (Json.lossless_nat _).fits_optional h.cognitiveComplexity
      importedSymbols := lossless_names.fits_optional h.importedSymbols
      callSites := CallSite.lossless.list.fits_optional h.callSites }
  ne_null _ := nofun

theorem readsFields : Json.ReadsFields fields 5 ofJson? ReadFrom where
  eq_some_iff := ofJson?_eq_some_iff
  congr h := by
    simp (disch := decide) only [readFrom_iff, Json.required_eq_held, Json.optional_eq_held, h]

/-- Which of the fields are there. -/
def presence (m : Metadata) : List Bool :=
  [true, true, true, true, true, m.symbolName.isSome, m.symbolType.isSome, m.parentClass.isSome,
   m.complexity.isSome, m.cognitiveComplexity.isSome, m.halsteadVolume.isSome,
   m.halsteadDifficulty.isSome, m.halsteadEffort.isSome, m.halsteadBugs.isSome,
   m.parameters.isSome, m.signature.isSome, m.returnType.isSome, m.imports.isSome,
   m.importedSymbols.isSome, m.exports.isSome, m.callSites.isSome]

/-- The fields that are there. -/
def presentFields (m : Metadata) : List String :=
  ((fields.zip m.presence).filter (·.2)).map (·.1)

theorem presence_cells (m : Metadata) :
    (m.cells.map fun cell => (cell.1, cell.2.isSome)) = fields.zip m.presence := by
  simp only [cells, fields, presence, List.map_cons, List.map_nil, Option.isSome_map,
    Option.isSome_some, List.zip_cons_cons, List.zip_nil_right]

theorem keys_present_cells (m : Metadata) :
    (Json.present m.cells).map (·.1) = m.presentFields := by
  rw [Json.keys_present, presentFields, ← presence_cells, List.filter_map, List.map_map]
  rfl

theorem ne_null_of_mem_cells (m : Metadata) : ∀ cell ∈ m.cells, cell.2 ≠ some .null := by
  simp [cells, Json.ofNat, Json.ofTexts, namesToJson]

theorem ne_null_of_mem_present_cells (m : Metadata) :
    ∀ member ∈ Json.present m.cells, member.2 ≠ .null := by
  intro member hmember hnull
  exact m.ne_null_of_mem_cells _ (Json.mem_present hmember) (congrArg some hnull)

end Metadata

/-! ## Chunks -/

namespace Chunk

theorem ofJson?_eq_some_iff {json : Json} {c : Chunk} :
    ofJson? json = some c ↔
      ∃ record, json.toRecord? ["content", "metadata"] 2 = some record ∧
        Json.required record "content" Json.toText? = some c.content ∧
        Json.required record "metadata" Metadata.ofJson? = some c.metadata := by
  constructor
  · intro h
    simp only [ofJson?, ↓Json.bind_eq_some_iff, Option.pure_def, Option.some.injEq] at h
    obtain ⟨record, hrecord, _, hcontent, _, hmetadata, rfl⟩ := h
    exact ⟨record, hrecord, hcontent, hmetadata⟩
  · rintro ⟨record, hrecord, hcontent, hmetadata⟩
    simp only [ofJson?, hrecord, hcontent, hmetadata, Option.bind_eq_bind, Option.bind_some,
      Option.pure_def]

theorem lossless : Lossless (fun c => c.metadata.Fits) toJson ofJson? where
  read_write c hc :=
    ofJson?_eq_some_iff.2 ⟨_, rfl, Json.lossless_text.required rfl trivial,
      Metadata.lossless.required rfl hc⟩
  fits json c h := by
    obtain ⟨record, -, -, hmetadata⟩ := ofJson?_eq_some_iff.1 h
    exact Metadata.lossless.fits_required hmetadata
  ne_null _ := nofun

/-- Only the content and the fields of the metadata of a chunk are read. -/
theorem ofJson?_congr {first second metadata metadata' : List (String × Json)}
    (hcontent : Json.SameUnder ["content"] first second)
    (hfirst : (Json.object first).get? "metadata" = some (.object metadata))
    (hsecond : (Json.object second).get? "metadata" = some (.object metadata'))
    (h : Json.SameUnder Metadata.fields metadata metadata') :
    ofJson? (.object first) = ofJson? (.object second) := by
  have hcontent : Json.required (fun key => (Json.object first).get? key) "content" Json.toText? =
      Json.required (fun key => (Json.object second).get? key) "content" Json.toText? := by
    simp (disch := decide) only [Json.required_eq_held, hcontent "content" List.mem_cons_self]
  have hmetadata :
      Json.required (fun key => (Json.object first).get? key) "metadata" Metadata.ofJson? =
        Json.required (fun key => (Json.object second).get? key) "metadata" Metadata.ofJson? := by
    simp only [Json.required, hfirst, hsecond, Option.bind_some,
      Metadata.readsFields.read_object_congr h]
  simp only [ofJson?, Json.toRecord?, Option.bind_eq_bind, Option.bind_some, hcontent, hmetadata]

/-- The JSON forms of chunks and symbols lose nothing. What is written is read back, if the numbers
are in range and the map is ordered, which everything that is read is. Of the metadata exactly the
fields that are there are written, and none as null. What was read is read again from what is
written of it; keys that are no fields do not count, and nor does null in the place of nothing. -/
theorem toJson_lossless :
    (∀ c : Chunk, c.metadata.Fits ↔ ofJson? c.toJson = some c) ∧
    (∀ s : Symbol, s.Fits ↔ Symbol.ofJson? s.toJson = some s) ∧
    (∀ m : Metadata, ∃ members, m.toJson = .object members ∧
      members.map (·.1) = m.presentFields ∧ ∀ member ∈ members, member.2 ≠ .null) ∧
    (∀ json c, ofJson? json = some c → ofJson? c.toJson = some c) ∧
    (∀ json s, Symbol.ofJson? json = some s → Symbol.ofJson? s.toJson = some s) ∧
    (∀ first second metadata metadata', Json.SameUnder ["content"] first second →
      (Json.object first).get? "metadata" = some (.object metadata) →
      (Json.object second).get? "metadata" = some (.object metadata') →
      Json.SameUnder Metadata.fields metadata metadata' →
      ofJson? (.object first) = ofJson? (.object second)) ∧
    (∀ first second, Json.SameUnder Symbol.fields first second →
      Symbol.ofJson? (.object first) = Symbol.ofJson? (.object second)) := by
  refine ⟨?_, ?_, ?_, ?_, ?_, ?_, ?_⟩
  · exact fun c => ⟨lossless.read_write c, lossless.fits c.toJson c⟩
  · exact fun s => ⟨Symbol.lossless.read_write s, Symbol.lossless.fits s.toJson s⟩
  · exact fun m => ⟨_, m.toJson_eq, m.keys_present_cells, m.ne_null_of_mem_present_cells⟩
  · exact fun _ _ h => lossless.read_write_of_read h
  · exact fun _ _ h => Symbol.lossless.read_write_of_read h
  · exact fun _ _ _ _ => ofJson?_congr
  · exact fun _ _ => Symbol.readsFields.read_object_congr

end Chunk

namespace Sample

/-- A block of a file that imports nothing, where no exports are known. -/
def block : Chunk where
  content := "text"
  metadata := {
    file := "a.liquid"
    startLine := 3
    endLine := 6
    kind := .block
    language := "liquid"
    symbolType := some (.block .schema)
    imports := some []
    importedSymbols := some [] }

/-- The metadata of the block in another order, with a key that is no field and a null. -/
def looseMetadata : List (String × Json) :=
  [("type", .string "block"), ("language", .string "liquid"), ("file", .string "a.liquid"),
   ("startLine", .ofNat 3), ("endLine", .ofNat 6), ("note", .bool true), ("exports", .null),
   ("imports", .array []), ("importedSymbols", .object []), ("symbolType", .string "schema")]

def looseBlock : List (String × Json) :=
  [("metadata", .object looseMetadata), ("note", .bool true), ("content", .string "text")]

def function : Symbol where
  name := "f"
  kind := .function
  startLine := 1
  endLine := 2
  parentClass := none
  signature := "fn f() -> u8"
  parameters := []
  returnType := some "u8"

/-- The function with a key that is no field, and without the container that it lacks. -/
def looseFunction : List (String × Json) :=
  ("note", .bool true) :: (Json.present function.cells).filter (·.1 != "parentClass")

end Sample

/-- The block and the function are read from their loose forms, and again from what is written of
them; imports that are empty are written, exports that are absent are not. -/
theorem Chunk.toJson_lossless_sample :
    Sample.block.metadata.Fits ∧ Sample.function.Fits ∧
    Chunk.ofJson? (.object Sample.looseBlock) = some Sample.block ∧
    Chunk.ofJson? Sample.block.toJson = some Sample.block ∧
    Symbol.ofJson? (.object Sample.looseFunction) = some Sample.function ∧
    Symbol.ofJson? Sample.function.toJson = some Sample.function ∧
    ∃ members, Sample.block.metadata.toJson = .object members ∧
      members.map (·.1) = ["file", "startLine", "endLine", "type", "language", "symbolType",
        "imports", "importedSymbols"] := by
  obtain ⟨hread, hreadSymbol, hkeys, hagain, hagainSymbol, hloose, hlooseSymbol⟩ :=
    Chunk.toJson_lossless
  have hfits : Sample.block.metadata.Fits :=
    ⟨by decide, by decide, nofun, nofun, by rintro _ ⟨⟩; exact .nil, nofun⟩
  have hfitsSymbol : Sample.function.Fits := ⟨by decide, by decide, by decide, by decide⟩
  have hcontent : Json.SameUnder ["content"] Sample.looseBlock
      [("content", .string "text"), ("metadata", Sample.block.metadata.toJson)] := by
    simp only [Json.SameUnder, List.forall_mem_singleton]
    rfl
  have hmetadata : Json.SameUnder Metadata.fields Sample.looseMetadata
      (Json.present Sample.block.metadata.cells) := by
    simp only [Json.SameUnder, Metadata.fields, List.forall_mem_cons]
    repeat' constructor
    nofun
  have hsymbol : Json.SameUnder Symbol.fields Sample.looseFunction
      (Json.present Sample.function.cells) := by
    simp only [Json.SameUnder, Symbol.fields, List.forall_mem_cons]
    repeat' constructor
    nofun
  have hblock := (hloose _ _ _ _ hcontent rfl rfl hmetadata).trans ((hread _).1 hfits)
  have hfunction := (hlooseSymbol _ _ hsymbol).trans ((hreadSymbol _).1 hfitsSymbol)
  obtain ⟨members, hmembers, hnames, -⟩ := hkeys Sample.block.metadata
  exact ⟨hfits, hfitsSymbol, hblock, hagain _ _ hblock, hfunction, hagainSymbol _ _ hfunction,
    members, hmembers, hnames⟩

end SourceChunks
