-- SUMMARY: Use declarations in PHP: plain and grouped clauses are read back, one entry each.
import SourceChunks.Language.Php
import SourceChunks.Proofs.Text.Printed
import SourceChunks.Proofs.Tree

/-!
# Clauses of use declarations

A use declaration lists clauses, each a qualified name that may be given another name, and a group
puts a common namespace in front of its clauses. The text is cut at braces and commas, and what is
left of a clause is read word by word. The clauses are read back in their order under their full
names, whatever white space is between the words, as long as a plain space follows the keyword of
the declaration and the clauses of a group have no keywords of their own.
-/

namespace SourceChunks.Language.Php

open Text (Token Printed Flush IsIdentifier AllIdentifiers moduleOf nameOf)

/-! ## Names and clauses -/

/-- A qualified name. -/
structure QualifiedName where
  /-- Whether the name begins with a backslash. -/
  rooted : Bool
  segments : List String

namespace QualifiedName

/-- The backslash in front of a name. -/
def root (name : QualifiedName) : String :=
  if name.rooted then "\\" else ""

def text (name : QualifiedName) : String :=
  name.root ++ "\\".intercalate name.segments

/-- A name as a declaration may hold it. The keywords of declarations are no names. -/
structure Proper (name : QualifiedName) : Prop where
  ne_nil : name.segments ≠ []
  identifiers : AllIdentifiers name.segments
  not_keyword : name.text ∉ ["function", "const"]

instance (name : QualifiedName) : Decidable name.Proper :=
  have : Decidable (AllIdentifiers name.segments) :=
    inferInstanceAs (Decidable (∀ segment ∈ name.segments, IsIdentifier segment))
  decidable_of_iff
    (name.segments ≠ [] ∧ AllIdentifiers name.segments ∧ name.text ∉ ["function", "const"])
    ⟨fun h => ⟨h.1, h.2.1, h.2.2⟩, fun h => ⟨h.1, h.2, h.3⟩⟩

/-- A name below a common namespace. -/
def under (base name : QualifiedName) : QualifiedName :=
  ⟨base.rooted, base.segments ++ name.segments⟩

end QualifiedName

/-- A clause: a name, perhaps with another name for it. -/
structure Clause where
  name : QualifiedName
  other : Option String

namespace Clause

/-- The words of a clause. -/
def words (clause : Clause) : List String :=
  clause.name.text :: (clause.other.map fun other => ["as", other]).getD []

def tokens (clause : Clause) : List Token :=
  clause.words.map .word

structure Proper (clause : Clause) : Prop where
  name : clause.name.Proper
  other : ∀ other ∈ clause.other, IsIdentifier other

instance (clause : Clause) : Decidable clause.Proper :=
  decidable_of_iff (clause.name.Proper ∧ ∀ other ∈ clause.other, IsIdentifier other)
    ⟨fun h => ⟨h.1, h.2⟩, fun h => ⟨h.1, h.2⟩⟩

/-- A clause of a group with its name spelled out. -/
def under (base : QualifiedName) (clause : Clause) : Clause :=
  { clause with name := base.under clause.name }

/-- The import of a clause, under its last segment if it has no other name. -/
def entry (clause : Clause) : Import :=
  let segments := clause.name.segments
  ⟨"\\".intercalate (moduleOf segments), [clause.other.getD (nameOf segments)]⟩

end Clause

/-! ## Declarations -/

/-- What a declaration imports, if not classes. -/
inductive ItemKind where
  | function
  | const

def ItemKind.text : ItemKind → String
  | function => "function"
  | const => "const"

/-- The keyword of a declaration. -/
def kindTokens : Option ItemKind → List Token
  | some kind => [.spaced kind.text]
  | none => []

def clauseTokens (clauses : List Clause) : List Token :=
  [.mark ","].intercalate (clauses.map Clause.tokens)

/-- Clauses behind a common namespace. A comma may follow the last of them. -/
def groupTokens (base : QualifiedName) (clauses : List Clause) (comma : Bool) : List Token :=
  .word (base.text ++ "\\") :: .mark "\x7b" ::
    (clauseTokens clauses ++ (if comma then [.mark ","] else []) ++ [.mark "\x7d"])

/-- The tokens of a declaration, around those of its clauses. -/
def useTokens (kind : Option ItemKind) (tokens : List Token) : List Token :=
  .word "use" :: (kindTokens kind ++ tokens) ++ [.mark ";"]

/-! ## Reading a clause -/

section Clauses

variable {segments : List String} {clause : Clause} {s : String}

theorem namespaceAndItem_segments (h : AllIdentifiers segments) (hne : segments ≠ []) :
    namespaceAndItem ("\\".intercalate segments) =
      ("\\".intercalate (moduleOf segments), nameOf segments) := by
  rw [namespaceAndItem, Text.splitLast?_segments rfl rfl h hne, moduleOf]
  by_cases hparts : segments.dropLast = []
  · rw [if_pos hparts, if_pos hparts, Text.intercalate_eq_nameOf hne hparts]
    rfl
  · have hpath : "\\".intercalate segments.dropLast ≠ "" := h.dropLast.intercalate_ne_empty hparts
    have hitem : nameOf segments ≠ "" := fun hempty => (h.nameOf hne).solid.1 (by rw [hempty]; rfl)
    rw [if_neg hparts, if_neg hparts, Option.filter_some, if_pos (by simp [hpath, hitem])]
    rfl

/-- The backslash in front of a name is removed. -/
theorem dropStartWhile_text {name : QualifiedName} (h : AllIdentifiers name.segments)
    (hne : name.segments ≠ []) :
    Text.dropStartWhile (· == '\\') name.text = "\\".intercalate name.segments := by
  have hroot : ∀ c ∈ name.root.toList, (c == '\\') = true := by
    cases hrooted : name.rooted with
    | true => simp [QualifiedName.root, hrooted]
    | false => simp [QualifiedName.root, hrooted]
  have hstop : ("\\".intercalate name.segments).toList.dropWhile (· == '\\') =
      ("\\".intercalate name.segments).toList := by
    obtain ⟨first, rest, hsegments⟩ := List.exists_cons_of_ne_nil hne
    have hfirst := h first (hsegments ▸ List.mem_cons_self)
    obtain ⟨d, ds, hd⟩ := List.exists_cons_of_ne_nil hfirst.solid.1
    have hback : d ≠ '\\' := by
      rintro rfl
      exact hfirst.not_mem (c := '\\') rfl (hd ▸ List.mem_cons_self)
    rw [← Text.spelling_joined, hsegments, Text.joined_cons, Text.spelling, List.flatMap_cons,
      show (Token.word first).text.toList = d :: ds from hd, List.cons_append]
    exact List.dropWhile_cons_of_neg (by simpa using hback)
  rw [Text.dropStartWhile, QualifiedName.text, String.toList_append,
    List.dropWhile_append_of_pos hroot, hstop, String.ofList_toList]

theorem alias?_words (other : Option String) :
    alias? ((other.map fun other => ["as", other]).getD []) = other := by
  cases other with
  | none => rfl
  | some other => rw [Option.map_some, Option.getD_some, alias?, if_pos (by decide)]

/-- A clause is read back from its words. -/
theorem clauseImport?_of_words (h : AllIdentifiers clause.name.segments)
    (hne : clause.name.segments ≠ []) (hwords : Text.words s = clause.words) :
    clauseImport? s = some clause.entry := by
  have hpath : "\\".intercalate (moduleOf clause.name.segments) ≠ "" := by
    rw [moduleOf]
    split
    · exact h.intercalate_ne_empty hne
    · next hparts => exact h.dropLast.intercalate_ne_empty hparts
  rw [clauseImport?, hwords, Clause.words]
  simp only [dropStartWhile_text h hne, namespaceAndItem_segments h hne, alias?_words]
  rw [if_neg (by simpa using hpath)]
  rfl

end Clauses

/-! ## Characters -/

section Characters

variable {c : Char}

theorem QualifiedName.Proper.mem_text {name : QualifiedName} (h : name.Proper)
    (hc : c ∈ name.text.toList) : c = '\\' ∨ Text.isBlank c = false ∧ Text.isMark c = false := by
  rw [QualifiedName.text, String.toList_append, List.mem_append] at hc
  rcases hc with hc | hc
  · cases hrooted : name.rooted with
    | true => exact .inl (by simpa [QualifiedName.root, hrooted] using hc)
    | false => simp [QualifiedName.root, hrooted] at hc
  · by_contra hother
    rw [not_or] at hother
    rw [← Text.spelling_joined] at hc
    refine Text.not_mem_spelling_joined (by simpa using hother.1) (fun segment hmem hc => ?_) hc
    have hsegment := h.identifiers segment hmem
    exact hother.2 ⟨hsegment.solid.2 c hc, hsegment.plain c hc⟩

theorem QualifiedName.Proper.not_mem {name : QualifiedName} (h : name.Proper)
    (hc : Text.isMark c = true) (hne : c ≠ '\\') : c ∉ name.text.toList := by
  intro hmem
  rcases h.mem_text hmem with rfl | ⟨-, hplain⟩
  · exact hne rfl
  · rw [hc] at hplain
    cases hplain

theorem QualifiedName.Proper.not_mem_base {base : QualifiedName} (h : base.Proper)
    (hc : Text.isMark c = true) (hne : c ≠ '\\') :
    c ∉ Text.spelling [.word (base.text ++ "\\")] := by
  have hbase := h.not_mem hc hne
  simpa [Text.spelling, Token.text, hbase] using hne

theorem Clause.Proper.not_mem {clause : Clause} (h : clause.Proper) (hc : Text.isMark c = true)
    (hne : c ≠ '\\') : c ∉ Text.spelling clause.tokens := by
  have hname := h.name.not_mem hc hne
  cases hother : clause.other with
  | none => simpa [Clause.tokens, Clause.words, hother, Text.spelling, Token.text] using hname
  | some other =>
      have has : c ∉ "as".toList := (by decide : IsIdentifier "as").not_mem hc
      have hother' := (h.other other hother).not_mem hc
      simp only [Clause.tokens, Clause.words, hother, Text.spelling, Option.map_some,
        Option.getD_some, List.map_cons, List.flatMap_cons, List.mem_append, not_or]
      exact ⟨hname, has, hother', List.not_mem_nil⟩

theorem not_mem_clauseTokens {clauses : List Clause} (h : ∀ clause ∈ clauses, clause.Proper)
    (hc : Text.isMark c = true) (hne : c ≠ '\\') (hcomma : c ≠ ',') :
    c ∉ Text.spelling (clauseTokens clauses) := by
  refine Text.not_mem_spelling_intercalate (by simpa [Text.spelling, Token.text] using hcomma) ?_
  intro part hpart
  obtain ⟨clause, hclause, rfl⟩ := List.mem_map.1 hpart
  exact (h clause hclause).not_mem hc hne

theorem not_mem_groupClauses {clauses : List Clause} {comma : Bool}
    (h : ∀ clause ∈ clauses, clause.Proper) (hc : Text.isMark c = true) (hne : c ≠ '\\')
    (hcomma : c ≠ ',') :
    c ∉ Text.spelling (clauseTokens clauses ++ if comma then [.mark ","] else []) := by
  rw [Text.spelling_append, List.mem_append, not_or]
  refine ⟨not_mem_clauseTokens h hc hne hcomma, ?_⟩
  cases comma with
  | true => simpa [Text.spelling, Token.text] using hcomma
  | false => exact List.not_mem_nil

end Characters

/-! ## Reading a list of clauses -/

section Lists

variable {clauses : List Clause}

theorem intercalate_concat_nil {α : Type} {sep : List α} {parts : List (List α)}
    (hne : parts ≠ []) : sep.intercalate (parts ++ [[]]) = sep.intercalate parts ++ sep := by
  induction parts with
  | nil => exact absurd rfl hne
  | cons part parts ih =>
      cases parts with
      | nil => simp
      | cons next parts =>
          rw [List.cons_append, List.cons_append, List.intercalate_cons_cons, ← List.cons_append,
            ih (List.cons_ne_nil _ _), List.intercalate_cons_cons]
          simp only [List.append_assoc]

/-- A list of clauses is cut into its clauses and, behind a closing comma, nothing. -/
theorem forall₂_pieces (comma : Bool) {s : String} (hne : clauses ≠ [])
    (h : ∀ clause ∈ clauses, clause.Proper)
    (hprinted : Printed (clauseTokens clauses ++ if comma then [.mark ","] else []) s.toList) :
    List.Forall₂ (fun part piece => Printed part piece.toList)
      (clauses.map Clause.tokens ++ if comma then [[]] else []) (Text.splitAt ',' s) := by
  have hparts : clauses.map Clause.tokens ≠ [] := by simpa using hne
  -- a closing comma separates the last clause from a part without tokens
  refine Printed.splitAt_intercalate (m := ",") rfl rfl (by simp [hparts]) ?_ ?_
  · intro part hpart
    rcases List.mem_append.1 hpart with hpart | hpart
    · obtain ⟨clause, hclause, rfl⟩ := List.mem_map.1 hpart
      exact (h clause hclause).not_mem rfl (by decide)
    · cases comma with
      | true => simp [List.mem_singleton.1 hpart, Text.spelling]
      | false => cases hpart
  · cases comma with
    | true => exact (intercalate_concat_nil hparts).symm ▸ hprinted
    | false => simpa [clauseTokens] using hprinted

/-- A reader of single clauses, which finds nothing behind a closing comma, reads all of them. -/
theorem filterMap_pieces (comma : Bool) {f : String → Option Import} {g : Clause → Import}
    {pieces : List String}
    (hf : ∀ clause ∈ clauses, ∀ piece : String, Printed clause.tokens piece.toList →
      f piece = some (g clause))
    (hnone : comma = true → ∀ piece : String, Printed [] piece.toList → f piece = none)
    (hpieces : List.Forall₂ (fun part piece => Printed part piece.toList)
      (clauses.map Clause.tokens ++ if comma then [[]] else []) pieces) :
    pieces.filterMap f = clauses.map g := by
  induction clauses generalizing pieces with
  | nil =>
      cases comma with
      | true =>
          obtain ⟨piece, hpiece, rfl⟩ : ∃ piece, Printed [] piece.toList ∧ pieces = [piece] := by
            cases hpieces with
            | cons hpiece hrest =>
                cases hrest
                exact ⟨_, hpiece, rfl⟩
          simp [hnone rfl piece hpiece]
      | false =>
          cases hpieces
          rfl
  | cons clause clauses ih =>
      rw [List.forall_mem_cons] at hf
      cases hpieces with
      | @cons _ piece _ pieces hpiece hrest =>
          rw [List.filterMap_cons, hf.1 piece hpiece, List.map_cons, ih hf.2 hrest]

end Lists

/-! ## The keyword of a declaration -/

section Keyword

variable {s word : String} {tokens : List Token}

/-- Where the first name of a declaration ends. -/
def endsName (c : Char) : Bool :=
  Text.isBlank c || c == ',' || c == '\x7b'

theorem QualifiedName.Proper.endsName_eq_false {name : QualifiedName} (h : name.Proper) :
    ∀ c ∈ name.text.toList, endsName c = false := by
  intro c hc
  rcases h.mem_text hc with rfl | ⟨hblank, hplain⟩
  · decide
  · have hcomma : c ≠ ',' := by rintro rfl; cases hplain
    have hbrace : c ≠ '\x7b' := by rintro rfl; cases hplain
    simp [endsName, hblank, hcomma, hbrace]

/-- A declaration with another first word does not begin with a keyword and a space. -/
theorem after?_keyword_eq_none (keyword : String) (h : Flush (.word word :: tokens) s)
    (hword : ∀ c ∈ word.toList, endsName c = false)
    (hmark : ∀ m, tokens.head? = some (.mark m) → ∀ c ∈ m.toList.head?, endsName c = true)
    (hkeyword : keyword.toList.any endsName = false) (hne : word ≠ keyword) :
    Text.after? (keyword ++ " ") s = none := by
  refine Text.after?_eq_none ?_
  rintro ⟨rest, hrest⟩
  -- up to the end of the first name the text is both the word and the keyword
  have hfirst : s.toList.takeWhile (!endsName ·) = word.toList := by
    refine h.takeWhile_eq (fun c hc => by simp [hword c hc]) (fun c hc => by simp [endsName, hc]) ?_
    intro m hm c hc
    simp [hmark m hm c hc]
  have hkeyword' : s.toList.takeWhile (!endsName ·) = keyword.toList := by
    rw [← hrest, String.toList_append, List.append_assoc,
      List.takeWhile_append_of_pos fun c hc => by simpa using List.any_eq_false.1 hkeyword c hc]
    simp [endsName, Text.isBlank]
  exact hne (String.toList_inj.1 (hfirst.symm.trans hkeyword'))

/-- Reading past the keyword of a declaration. -/
theorem printed_dropImportKind {kind : Option ItemKind}
    (h : Flush (kindTokens kind ++ .word word :: tokens) s)
    (hword : ∀ c ∈ word.toList, endsName c = false)
    (hmark : ∀ m, tokens.head? = some (.mark m) → ∀ c ∈ m.toList.head?, endsName c = true)
    (hne : word ∉ ["function", "const"]) :
    Printed (.word word :: tokens) (dropImportKind s).toList := by
  cases kind with
  | none =>
      simp only [List.mem_cons, List.not_mem_nil, or_false, not_or] at hne
      have hfunction : Text.after? "function " s = none :=
        after?_keyword_eq_none "function" h hword hmark (by decide) hne.1
      have hconst : Text.after? "const " s = none :=
        after?_keyword_eq_none "const" h hword hmark (by decide) hne.2
      have hsame : dropImportKind s = s := by
        simp only [dropImportKind, List.findSome?_cons, List.findSome?_nil, hfunction, hconst,
          Option.getD_none]
      rw [hsame]
      exact h.printed
  | some kind =>
      obtain ⟨rest, -, hs, hspace, hrest⟩ := Flush.exists_after? h
      obtain ⟨behind, hbehind⟩ := List.head?_eq_some_iff.1 (hspace (List.cons_ne_nil _ _))
      rw [hbehind] at hs hrest
      have hdrop : dropImportKind s = .ofList behind := by
        cases kind with
        | function =>
            have hfunction : Text.after? "function " s = some (.ofList behind) :=
              Text.after?_of_append hs
            simp only [dropImportKind, List.findSome?_cons, hfunction, Option.getD_some]
        | const =>
            have hfunction : Text.after? "function " s = none := by
              refine Text.after?_eq_none ?_
              rintro ⟨more, hmore⟩
              have hhead := congrArg List.head? (hmore.trans hs)
              exact absurd (Option.some.inj hhead) (by decide)
            have hconst : Text.after? "const " s = some (.ofList behind) :=
              Text.after?_of_append hs
            simp only [dropImportKind, List.findSome?_cons, hfunction, hconst, Option.getD_some]
      rw [hdrop, String.toList_ofList]
      exact hrest.of_cons_blank rfl

/-- Reading a declaration up to its clauses. -/
theorem exists_body {kind : Option ItemKind}
    (h : Printed (useTokens kind (.word word :: tokens)) s.toList)
    (hword : ∀ c ∈ word.toList, endsName c = false)
    (hmark : ∀ m, tokens.head? = some (.mark m) → ∀ c ∈ m.toList.head?, endsName c = true)
    (hne : word ∉ ["function", "const"]) (hc : ';' ∉ Text.spelling (.word word :: tokens)) :
    ∃ body : String, Printed (.word word :: tokens) body.toList ∧
      textImports s = (clauses body).filterMap clauseImport? := by
  have hsemicolon :
      ';' ∉ Text.spelling (.word "use" :: (kindTokens kind ++ .word word :: tokens)) := by
    rw [Text.spelling, List.flatMap_cons, ← Text.spelling, Text.spelling_append, List.mem_append,
      List.mem_append, not_or, not_or]
    refine ⟨by decide, ?_, hc⟩
    cases kind with
    | none => decide
    | some kind =>
        cases kind with
        | function => decide
        | const => decide
  obtain ⟨rest, hrest, -, -, hprinted⟩ := (h.flush_statement hsemicolon).exists_after?
  refine ⟨_, printed_dropImportKind hprinted.flush_trimStart hword hmark hne, ?_⟩
  unfold textImports
  extract_lets text
  rw [show Text.after? "use" text = some rest from hrest]

end Keyword

/-! ## Reading a declaration -/

section Declarations

variable {kind : Option ItemKind} {list : List Clause} {s : String}

/-- A list of clauses begins with a name, which ends at a comma, at white space or with the list. -/
theorem exists_clauseTokens (first : Clause) (rest : List Clause) :
    ∃ more, clauseTokens (first :: rest) = .word first.name.text :: more ∧
      ∀ m, more.head? = some (.mark m) → m = "," := by
  simp only [clauseTokens, List.map_cons, Clause.tokens, Clause.words]
  cases rest with
  | nil =>
      refine ⟨_, rfl, ?_⟩
      cases first.other with
      | none => simp
      | some other => simp
  | cons next rest =>
      rw [List.map_cons, List.intercalate_cons_cons]
      refine ⟨_, rfl, ?_⟩
      cases first.other with
      | none => simp
      | some other => simp

/-- Clauses that are not grouped are read one by one. -/
theorem filterMap_clauses_plain (hne : list ≠ []) (hproper : ∀ clause ∈ list, clause.Proper)
    (h : Printed (clauseTokens list) s.toList) :
    (clauses s).filterMap clauseImport? = list.map Clause.entry := by
  have hbrace := not_mem_clauseTokens (c := '\x7b') hproper rfl (by decide) (by decide)
  have hclauses : clauses s = Text.splitAt ',' s := by
    rw [clauses, h.splitFirst?_eq_none rfl rfl hbrace]
  rw [hclauses]
  refine filterMap_pieces false (fun clause hclause piece hpiece => ?_) (fun h => by cases h)
    (forall₂_pieces false hne hproper (by simpa using h))
  have hname := (hproper clause hclause).name
  exact clauseImport?_of_words hname.identifiers hname.ne_nil hpiece.words_eq

theorem textImports_plain (hne : list ≠ []) (hproper : ∀ clause ∈ list, clause.Proper)
    (h : Printed (useTokens kind (clauseTokens list)) s.toList) :
    textImports s = list.map Clause.entry := by
  obtain ⟨first, rest, rfl⟩ := List.exists_cons_of_ne_nil hne
  obtain ⟨more, hmore, hmark⟩ := exists_clauseTokens first rest
  have hfirst := (hproper first List.mem_cons_self).name
  have hsemicolon := not_mem_clauseTokens (c := ';') hproper rfl (by decide) (by decide)
  have hcomma : ∀ m, more.head? = some (.mark m) → ∀ c ∈ m.toList.head?, endsName c = true := by
    intro m hm c hc
    rw [hmark m hm] at hc
    rw [← Option.some.inj hc]
    decide
  rw [hmore] at h hsemicolon
  obtain ⟨body, hbody, hentries⟩ :=
    exists_body h hfirst.endsName_eq_false hcomma hfirst.not_keyword hsemicolon
  rw [← hmore] at hbody
  rw [hentries, filterMap_clauses_plain hne hproper hbody]

/-! ### Groups -/

theorem text_under {base name : QualifiedName} (hbase : base.segments ≠ [])
    (hname : name.segments ≠ []) (hrooted : name.rooted = false) :
    base.text ++ "\\" ++ name.text = (base.under name).text := by
  rw [QualifiedName.text, QualifiedName.text, QualifiedName.text, QualifiedName.under,
    String.intercalate_append_of_ne_nil hbase hname]
  simp [QualifiedName.root, hrooted, String.append_assoc]

/-- A clause of a group is read back with the namespace of the group in front. -/
theorem clauseImport?_group {base : QualifiedName} {clause : Clause} {piece : String}
    (hbase : base.Proper) (hclause : clause.Proper) (hrooted : clause.name.rooted = false)
    (h : Printed clause.tokens piece.toList) :
    clauseImport? (base.text ++ "\\" ++ Text.trim piece) = some (clause.under base).entry := by
  have hlead : ∀ c ∈ (base.text ++ "\\").toList, Text.isBlank c = false := by
    intro c hc
    rw [String.toList_append, List.mem_append] at hc
    rcases hc with hc | hc
    · rcases hbase.mem_text hc with rfl | ⟨hblank, -⟩
      · decide
      · exact hblank
    · obtain rfl : c = '\\' := by simpa using hc
      decide
  have hprinted := Flush.append_word h.flush_trim hlead
  rw [text_under hbase.ne_nil hclause.name.ne_nil hrooted] at hprinted
  refine clauseImport?_of_words ?_ ?_ (Printed.words_eq hprinted)
  · exact hbase.identifiers.append hclause.name.identifiers
  · simp [Clause.under, QualifiedName.under, hbase.ne_nil]

/-- A name ends in its last segment. -/
theorem QualifiedName.Proper.getLast?_ne {name : QualifiedName} (h : name.Proper) :
    ∀ c ∈ name.text.toList.getLast?, c ≠ '\\' := by
  have hlast := h.identifiers.nameOf h.ne_nil
  obtain ⟨lead, hlead⟩ : ∃ lead, name.text.toList = lead ++ (nameOf name.segments).toList := by
    by_cases hparts : name.segments.dropLast = []
    · refine ⟨name.root.toList, ?_⟩
      rw [QualifiedName.text, Text.intercalate_eq_nameOf h.ne_nil hparts, String.toList_append]
    · refine ⟨(name.root ++ ("\\".intercalate name.segments.dropLast ++ "\\")).toList, ?_⟩
      rw [QualifiedName.text, ← String.toList_append, String.append_assoc, String.append_assoc]
      nth_rewrite 1 [← Text.dropLast_append_nameOf h.ne_nil]
      rw [String.intercalate_append_of_ne_nil hparts (List.cons_ne_nil _ _),
        String.intercalate_singleton, String.append_assoc]
  intro c hc
  rw [hlead, List.getLast?_append_of_ne_nil _ hlast.solid.1] at hc
  rintro rfl
  exact hlast.not_mem rfl (List.mem_of_getLast? hc)

/-- The clauses of a group are read one by one. -/
theorem filterMap_clauses_group {base : QualifiedName} {comma : Bool} (hne : list ≠ [])
    (hbase : base.Proper) (hproper : ∀ clause ∈ list, clause.Proper)
    (hrooted : ∀ clause ∈ list, clause.name.rooted = false)
    (h : Printed (groupTokens base list comma) s.toList) :
    (clauses s).filterMap clauseImport? = list.map fun clause => (clause.under base).entry := by
  have hopen := hbase.not_mem_base (c := '\x7b') rfl (by decide)
  obtain ⟨front, rest, hcut, hfront, hrest⟩ := Printed.exists_splitFirst? rfl h rfl hopen
  have hspace : Text.dropEndWhile (· == '\\') (Text.trim front) = base.text := by
    rw [hfront.trim_eq, Text.dropEndWhile_of_append String.toList_append hbase.getLast?_ne,
      String.ofList_toList]
  have hgroup := hrest.trim.dropEndWhile_mark rfl (Text.trimmed_trim rest).2
    (not_mem_groupClauses hproper rfl (by decide) (by decide))
  rw [clauses, hcut]
  simp only [hspace, List.filterMap_map, List.filterMap_filter]
  refine filterMap_pieces comma ?_ ?_ (forall₂_pieces comma hne hproper hgroup)
  · intro clause hclause piece hpiece
    obtain ⟨c, hc, -⟩ := Printed.exists_not_blank hpiece.trim
    have hempty : (Text.trim piece).isEmpty = false := by
      rw [String.isEmpty_eq_false_iff]
      intro hempty
      rw [hempty] at hc
      cases hc
    simp only [Function.comp, hempty]
    exact clauseImport?_group hbase (hproper clause hclause) (hrooted clause hclause) hpiece
  · -- behind the closing comma
    intro _ piece hpiece
    have hempty : Text.trim piece = "" :=
      String.toList_eq_nil_iff.1 (hpiece.trim.eq_nil (Text.trimmed_trim piece).2)
    simp [hempty]

theorem textImports_group {base : QualifiedName} {comma : Bool} (hne : list ≠ [])
    (hbase : base.Proper) (hproper : ∀ clause ∈ list, clause.Proper)
    (hrooted : ∀ clause ∈ list, clause.name.rooted = false)
    (h : Printed (useTokens kind (groupTokens base list comma)) s.toList) :
    textImports s = list.map fun clause => (clause.under base).entry := by
  have hword : ∀ c ∈ (base.text ++ "\\").toList, endsName c = false := by
    rw [String.toList_append, List.forall_mem_append]
    refine ⟨hbase.endsName_eq_false, fun c hc => ?_⟩
    obtain rfl : c = '\\' := by simpa using hc
    decide
  have hkeyword : base.text ++ "\\" ∉ ["function", "const"] := by
    have hback : '\\' ∈ (base.text ++ "\\").toList := by simp
    simp only [List.mem_cons, List.not_mem_nil, or_false]
    rintro (heq | heq)
    · rw [heq] at hback
      exact absurd hback (by decide)
    · rw [heq] at hback
      exact absurd hback (by decide)
  have hsemicolon : ';' ∉ Text.spelling (groupTokens base list comma) := by
    rw [groupTokens, ← List.singleton_append, Text.spelling_append, List.mem_append, not_or]
    refine ⟨hbase.not_mem_base rfl (by decide), ?_⟩
    rw [← List.singleton_append, Text.spelling_append, Text.spelling_append, List.mem_append,
      List.mem_append, not_or, not_or]
    exact ⟨by decide, not_mem_groupClauses hproper rfl (by decide) (by decide), by decide⟩
  have hbrace : ∀ m, (groupTokens base list comma).tail.head? = some (.mark m) →
      ∀ c ∈ m.toList.head?, endsName c = true := by
    intro m hm c hc
    obtain rfl : "\x7b" = m := by simpa [groupTokens] using hm
    rw [← Option.some.inj hc]
    decide
  obtain ⟨body, hbody, hentries⟩ := exists_body h hword hbrace hkeyword hsemicolon
  rw [hentries, filterMap_clauses_group hne hbase hproper hrooted hbody]

/-- The clauses of a declaration are read back in their order, each under its full name, if a plain
space follows the keyword of the declaration. In a group, the backslash stands right behind the
namespace, and the clauses have neither keywords nor backslashes in front of their names. -/
theorem importEntries_clauses {source : String} {place : Place} (hne : list ≠ [])
    (hproper : ∀ clause ∈ list, clause.Proper) (kind : Option ItemKind) :
    (Printed (useTokens kind (clauseTokens list)) (place.node.text source).toList →
      php.importEntries source place = list.map Clause.entry) ∧
    (∀ base comma, base.Proper → (∀ clause ∈ list, clause.name.rooted = false) →
      Printed (useTokens kind (groupTokens base list comma)) (place.node.text source).toList →
      php.importEntries source place = list.map fun clause => (clause.under base).entry) := by
  have htext : php.importEntries source place = textImports (place.node.text source) := by
    simp only [php, importEntries]
  rw [htext]
  exact ⟨textImports_plain hne hproper, fun base comma hbase hrooted =>
    textImports_group hne hbase hproper hrooted⟩

end Declarations

/-! ### Samples -/

private def plainText : String := "use function \\A\\b as c,\n  D ;"

private def plainClauses : List Clause :=
  [⟨⟨true, ["A", "b"]⟩, some "c"⟩, ⟨⟨false, ["D"]⟩, none⟩]

private def groupedText : String := "use A\\ \x7bB as C,\n  D\\e,\x7d;"

private def groupedClauses : List Clause :=
  [⟨⟨false, ["B"]⟩, some "C"⟩, ⟨⟨false, ["D", "e"]⟩, none⟩]

private def declarationOf (text : String) : Place :=
  ⟨Sample.construct 0 "namespace_use_declaration" 0 (Text.byteLength text.toList) [], none⟩

/-- Declarations with a keyword, with a group, with other names and with a closing comma. -/
theorem importEntries_clauses_sample :
    php.importEntries plainText (declarationOf plainText) = [⟨"A", ["c"]⟩, ⟨"D", ["D"]⟩] ∧
    php.importEntries groupedText (declarationOf groupedText) =
      [⟨"A", ["C"]⟩, ⟨"A\\D", ["e"]⟩] := by
  have hplain : Text.IsLayout "" [("", .word "use"), (" ", .spaced "function"),
      (" ", .word "\\A\\b"), (" ", .word "as"), (" ", .word "c"), ("", .mark ","),
      ("\n  ", .word "D"), (" ", .mark ";")] := by decide
  have hgrouped : Text.IsLayout "" [("", .word "use"), (" ", .word "A\\"), (" ", .mark "\x7b"),
      ("", .word "B"), (" ", .word "as"), (" ", .word "C"), ("", .mark ","),
      ("\n  ", .word "D\\e"), ("", .mark ","), ("", .mark "\x7d"), ("", .mark ";")] := by decide
  obtain ⟨hread, -⟩ := @importEntries_clauses plainClauses plainText (declarationOf plainText)
    (List.cons_ne_nil _ _) (by decide) (some .function)
  obtain ⟨-, hreadGroup⟩ := @importEntries_clauses groupedClauses groupedText
    (declarationOf groupedText) (List.cons_ne_nil _ _) (by decide) none
  constructor
  · exact (hread (Text.printed_layout hplain)).trans (by decide)
  · exact (hreadGroup ⟨false, ["A"]⟩ true (by decide) (by decide)
      (Text.printed_layout hgrouped)).trans (by decide)

private def brokenText : String := "use function\nA\\b;"

private def mixedText : String := "use A\\\x7bfunction b\x7d;"

private def apartText : String := "use A \\\x7bB\x7d;"

private def rootedText : String := "use A\\\x7b\\B\x7d;"

/-- A keyword with other white space behind it and a keyword inside a group are taken for names, and
so is a namespace that stands apart from its backslash. A backslash in front of a name of a group
stays at the end of the namespace. -/
theorem importEntries_keywordClauses :
    Printed [.word "use", .word "function", .word "A\\b", .mark ";"] brokenText.toList ∧
    php.importEntries brokenText (declarationOf brokenText) = [⟨"function", ["function"]⟩] ∧
    Printed [.word "use", .word "A\\", .mark "\x7b", .word "function", .word "b", .mark "\x7d",
      .mark ";"] mixedText.toList ∧
    php.importEntries mixedText (declarationOf mixedText) = [⟨"A", ["function"]⟩] ∧
    Printed [.word "use", .word "A", .mark "\\", .mark "\x7b", .word "B", .mark "\x7d", .mark ";"]
      apartText.toList ∧
    php.importEntries apartText (declarationOf apartText) = [⟨"A", ["A"]⟩] ∧
    Printed [.word "use", .word "A\\", .mark "\x7b", .word "\\B", .mark "\x7d", .mark ";"]
      rootedText.toList ∧
    php.importEntries rootedText (declarationOf rootedText) = [⟨"A\\", ["B"]⟩] := by
  have hbroken : Text.IsLayout "" [("", .word "use"), (" ", .word "function"),
      ("\n", .word "A\\b"), ("", .mark ";")] := by decide
  have hmixed : Text.IsLayout "" [("", .word "use"), (" ", .word "A\\"), ("", .mark "\x7b"),
      ("", .word "function"), (" ", .word "b"), ("", .mark "\x7d"), ("", .mark ";")] := by decide
  have hapart : Text.IsLayout "" [("", .word "use"), (" ", .word "A"), (" ", .mark "\\"),
      ("", .mark "\x7b"), ("", .word "B"), ("", .mark "\x7d"), ("", .mark ";")] := by decide
  have hrooted : Text.IsLayout "" [("", .word "use"), (" ", .word "A\\"), ("", .mark "\x7b"),
      ("", .word "\\B"), ("", .mark "\x7d"), ("", .mark ";")] := by decide
  exact ⟨Text.printed_layout hbroken, by decide, Text.printed_layout hmixed, by decide,
    Text.printed_layout hapart, by decide, Text.printed_layout hrooted, by decide⟩

end SourceChunks.Language.Php
