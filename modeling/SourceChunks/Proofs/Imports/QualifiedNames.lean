-- SUMMARY: Import declarations in Java and using directives in C#: which printed statements are read back.
import SourceChunks.Language.CSharp
import SourceChunks.Language.Java
import SourceChunks.Proofs.Text.Printed
import SourceChunks.Proofs.Tree

/-!
# Statements that import a qualified name

An import declaration in Java and a using directive in C# name what they import by identifiers with
dots between them, perhaps behind the keyword `static`. Their readers take the text apart from both
ends. Layout makes no difference to them, and neither do most names, but both readers look for the
letters of the keyword instead of the word: a statement without the keyword is read back exactly if
its first name does not begin with these letters, and else they are missing from what is read.
-/

namespace SourceChunks.Language

open Text (Token Printed Flush IsIdentifier joined optional)

/-! ## The keyword -/

section Keyword

variable {isStatic : Bool} {first : String} {more : List Token} {s : String}

/-- Whether the first name of a statement, which may have the keyword in front of it, survives a
reader that removes the letters of the keyword. -/
def KeepsFirst (isStatic : Bool) (first : String) : Prop :=
  isStatic = true ∨ Text.beginsWith "static" first = false

instance : Decidable (KeepsFirst isStatic first) :=
  inferInstanceAs (Decidable (_ ∨ _))

/-- The first name of a statement without the letters that are taken for the keyword. -/
def firstRead (isStatic : Bool) (first : String) : String :=
  if isStatic then first else (Text.after? "static" first).getD first

theorem firstRead_of_keepsFirst (h : KeepsFirst isStatic first) :
    firstRead isStatic first = first := by
  rcases h with rfl | hfirst
  · rfl
  · have hnone : Text.after? "static" first = none :=
      Text.after?_eq_none fun h => by simp [Text.beginsWith_iff.2 h] at hfirst
    simp [firstRead, hnone]

/-- A first name that does not survive ends in the name that is read. -/
theorem exists_firstRead (h : ¬ KeepsFirst isStatic first) :
    isStatic = false ∧ first = "static" ++ firstRead isStatic first := by
  simp only [KeepsFirst, not_or, Bool.not_eq_true, Bool.not_eq_false] at h
  obtain ⟨rfl, hfirst⟩ := h
  obtain ⟨rest, hrest⟩ := Text.beginsWith_iff.1 hfirst
  have hread : firstRead false first = .ofList rest := by
    simp [firstRead, Text.after?_of_append hrest.symm]
  refine ⟨rfl, ?_⟩
  rw [← String.toList_inj, hread]
  simpa using hrest.symm

theorem firstRead_eq_iff : firstRead isStatic first = first ↔ KeepsFirst isStatic first := by
  refine ⟨fun h => ?_, firstRead_of_keepsFirst⟩
  by_contra hkeeps
  obtain ⟨-, hfirst⟩ := exists_firstRead hkeeps
  rw [h] at hfirst
  have hlength := congrArg (·.toList.length) hfirst
  simp only [String.toList_append, List.length_append] at hlength
  exact absurd hlength (by simp)

theorem isIdentifier_firstRead (h : IsIdentifier first) (hkeyword : first ≠ "static") :
    IsIdentifier (firstRead isStatic first) := by
  by_cases hkeeps : KeepsFirst isStatic first
  · rwa [firstRead_of_keepsFirst hkeeps]
  · obtain ⟨-, hfirst⟩ := exists_firstRead hkeeps
    have hsub : ∀ c ∈ (firstRead isStatic first).toList, c ∈ first.toList := by
      intro c hc
      rw [hfirst, String.toList_append]
      exact List.mem_append_right _ hc
    refine ⟨⟨fun hnil => hkeyword ?_, fun c hc => h.solid.2 c (hsub c hc)⟩,
      fun c hc => h.plain c (hsub c hc)⟩
    rw [hfirst, String.toList_eq_nil_iff.1 hnil, String.append_empty]

/-- What is behind the first name begins with a mark. -/
def MarkFollows (more : List Token) : Prop :=
  ∀ token ∈ more.head?, ∃ m, token = .mark m ∧ ∀ c ∈ m.toList.head?, Text.isMark c = true

theorem markFollows_cons {m : String} {c : Char} (hm : m.toList = [c]) (hc : Text.isMark c = true)
    (tokens : List Token) : MarkFollows (.mark m :: tokens) := by
  intro token htoken
  refine ⟨m, Option.some.inj htoken.symm, fun d hd => ?_⟩
  rw [hm] at hd
  rwa [← Option.some.inj hd]

/-- Reading past the keyword, or past its letters in the first name. -/
theorem flush_afterStatic {f : String → String}
    (hf : ∀ {tokens : List Token} {rest : String}, Printed tokens rest.toList →
      Flush tokens (f rest))
    (h : Flush (optional isStatic "static" ++ .word first :: more) s) (hfirst : IsIdentifier first)
    (hkeyword : first ≠ "static") (hmore : MarkFollows more) :
    Flush (.word (firstRead isStatic first) :: more) (((Text.after? "static" s).map f).getD s) := by
  by_cases hkeeps : KeepsFirst isStatic first
  · rw [firstRead_of_keepsFirst hkeeps]
    refine h.afterKeyword (fun rest => hf) fun habsent hlead => ?_
    subst habsent
    -- the letters would be those of the first name
    let p (c : Char) : Bool := !Text.isBlank c && !Text.isMark c
    have hname : s.toList.takeWhile p = first.toList := by
      refine Flush.takeWhile_eq h (fun c hc => ?_) (fun c hc => by simp [p, hc]) fun m hm c hc => ?_
      · simp [p, hfirst.solid.2 c hc, hfirst.plain c hc]
      · obtain ⟨m', hm', hmark⟩ := hmore _ hm
        cases hm'
        simp [p, hmark c hc]
    have hlead' := Text.isPrefix_takeWhile (p := p) (by decide) hlead
    rw [hname] at hlead'
    rcases hkeeps with hstatic | hbegins
    · cases hstatic
    · rw [Text.beginsWith_iff.2 hlead'] at hbegins
      cases hbegins
  · obtain ⟨rfl, hsplit⟩ := exists_firstRead hkeeps
    obtain ⟨rest, -, hs, hapart, hrest⟩ := Flush.exists_after? h
    set name := firstRead false first with hname
    have hs' : s.toList = "static".toList ++ (name.toList ++ rest.toList) := by
      rw [hs, show (Token.word first).text = first from rfl]
      nth_rewrite 1 [hsplit]
      rw [String.toList_append, List.append_assoc]
    rw [Text.after?_of_append hs', Option.map_some, Option.getD_some]
    refine hf ?_
    rw [String.toList_ofList]
    exact @Printed.cons [] rest.toList (.word name) more (fun c hc => by cases hc)
      (isIdentifier_firstRead hfirst hkeyword).solid hapart hrest

end Keyword

section Path

variable {isStatic : Bool} {first : String} {names : List String}

theorem markFollows_joined (names : List String) :
    MarkFollows (names.flatMap fun name => [.mark ".", .word name]) := by
  cases names with
  | nil => exact fun token htoken => by cases htoken
  | cons name names => exact markFollows_cons rfl rfl _

/-- Reading past the keyword in front of a qualified name. -/
theorem flush_path {f : String → String} {s : String}
    (hf : ∀ {tokens : List Token} {rest : String}, Printed tokens rest.toList →
      Flush tokens (f rest))
    (h : Flush (optional isStatic "static" ++ joined "." (first :: names)) s)
    (hfirst : IsIdentifier first) (hkeyword : first ≠ "static") :
    Flush (joined "." (firstRead isStatic first :: names))
      (((Text.after? "static" s).map f).getD s) := by
  rw [Text.joined_cons] at h ⊢
  exact flush_afterStatic hf h hfirst hkeyword (markFollows_joined names)

end Path

/-! ## Java -/

namespace Java

/-- The tokens of an import declaration. What it imports is an identifier or the star. -/
def importTokens (isStatic : Bool) (names : List String) : List Token :=
  .word "import" :: (optional isStatic "static" ++ joined "." names ++ [.mark ";"])

section Reading

variable {isStatic : Bool} {tokens : List Token} {s : String}

/-- The declaration without its first word and its semicolon. The first word is removed once, as
white space follows it. -/
theorem flush_body (h : Printed (.word "import" :: (tokens ++ [.mark ";"])) s.toList)
    (hword : ∃ token ∈ tokens.head?, token.isWord = true) (hc : ';' ∉ Text.spelling tokens) :
    Flush tokens
      (Text.trim (Text.dropEndWhile (· == ';') (Text.dropAll "import" (Text.trim s)))) := by
  obtain ⟨rest, -, hs, hapart, hrest⟩ := h.flush_trim.exists_after?
  change (Text.trim s).toList = "import".toList ++ rest.toList at hs
  have honce : ¬ "import".toList <+: rest.toList := by
    obtain ⟨token, htoken, hword⟩ := hword
    obtain ⟨c, hc, hblank⟩ := hapart token (by simp [Option.mem_def.1 htoken]) hword
    rintro ⟨behind, hbehind⟩
    rw [← hbehind] at hc
    obtain rfl : 'i' = c := Option.some.inj hc
    exact absurd hblank (by decide)
  have hlast : ∀ d ∈ rest.toList.getLast?, Text.isBlank d = false := by
    intro d hd
    refine (Text.trimmed_trim s).2 d ?_
    rw [hs, List.getLast?_append, Option.mem_def.1 hd]
    rfl
  rw [Text.dropAll_of_append hs honce, String.ofList_toList]
  exact (hrest.dropEndWhile_mark rfl hlast hc).flush_trim

/-- A qualified name is cut at its last dot. -/
theorem splitLast?_qualified {first : String} {names : List String} {last : String}
    (hfirst : IsIdentifier first) (hlast : IsIdentifier last ∨ last = "*") :
    ((Text.splitLast? "." (".".intercalate (first :: (names ++ [last])))).filter fun (path, item) =>
        !path.isEmpty && !item.isEmpty) = some (".".intercalate (first :: names), last) := by
  have hdot : '.' ∉ last.toList := by
    rcases hlast with hlast | rfl
    · exact hlast.not_mem rfl
    · decide
  have hitem : last ≠ "" := by
    rcases hlast with hlast | rfl
    · exact fun h => hlast.solid.1 (by rw [h]; rfl)
    · decide
  have hpath : ".".intercalate (first :: names) ≠ "" := Text.intercalate_ne_empty hfirst.solid.1
  rw [← List.cons_append, Text.splitLast?_intercalate rfl (List.cons_ne_nil first names) hdot]
  simp [hpath, hitem]

/-- A declaration is read as the import of its last part from the path in front of it, without the
letters that are taken for the keyword. -/
theorem textImports_printed {first : String} {names : List String} {last : String}
    (hnames : ∀ name ∈ first :: names, IsIdentifier name) (hkeyword : first ≠ "static")
    (hlast : IsIdentifier last ∨ last = "*")
    (h : Printed (importTokens isStatic (first :: (names ++ [last]))) s.toList) :
    textImports s = [⟨".".intercalate (firstRead isStatic first :: names), [last]⟩] := by
  have hfirst := hnames first List.mem_cons_self
  have hread : IsIdentifier (firstRead isStatic first) := isIdentifier_firstRead hfirst hkeyword
  have hsemicolon : ∀ name ∈ first :: (names ++ [last]), ';' ∉ name.toList := by
    intro name hname
    rw [← List.cons_append] at hname
    rcases List.mem_append.1 hname with hname | hname
    · exact (hnames name hname).not_mem rfl
    · rw [List.mem_singleton.1 hname]
      rcases hlast with hlast | rfl
      · exact hlast.not_mem rfl
      · decide
  have hbody : Flush (optional isStatic "static" ++ joined "." (first :: (names ++ [last])))
      (Text.trim (Text.dropEndWhile (· == ';') (Text.dropAll "import" (Text.trim s)))) := by
    refine flush_body h ?_ ?_
    · rw [Text.joined_cons]
      cases isStatic with
      | true => exact ⟨_, rfl, rfl⟩
      | false => exact ⟨_, rfl, rfl⟩
    · rw [Text.spelling_append, List.mem_append, not_or]
      exact ⟨Text.not_mem_spelling_optional (by decide),
        Text.not_mem_spelling_joined (by decide) hsemicolon⟩
  have hpath := flush_path (fun h => h.flush_trim) hbody hfirst hkeyword
  unfold textImports
  extract_lets body path qualified
  have hqualified : qualified = _ := hpath.printed.squeeze_joined
  rw [hqualified, splitLast?_qualified hread hlast]

end Reading

end Java

/-! ## C# -/

namespace CSharp

/-- The tokens of a using directive, around those that say what is used. -/
def usingTokens (isGlobal : Bool) (tokens : List Token) : List Token :=
  optional isGlobal "global" ++ .word "using" :: tokens ++ [.mark ";"]

section Reading

variable {isGlobal isStatic : Bool} {tokens : List Token} {first s : String} {names : List String}

/-- The directive without its first words and its semicolon. -/
theorem exists_body (h : Printed (usingTokens isGlobal tokens) s.toList)
    (hc : ';' ∉ Text.spelling tokens) :
    let text := Text.trim (Text.dropEndWhile (· == ';') (Text.trim s))
    ∃ body : String,
      Text.after? "using" (((Text.after? "global" text).map Text.trimStart).getD text) = some body ∧
        Flush tokens (Text.trim body) := by
  intro text
  have hsemicolon :
      ';' ∉ Text.spelling (optional isGlobal "global" ++ .word "using" :: tokens) := by
    rw [Text.spelling_append, List.mem_append, not_or]
    refine ⟨Text.not_mem_spelling_optional (by decide), ?_⟩
    rw [Text.spelling, List.flatMap_cons, List.mem_append, not_or]
    exact ⟨by decide, hc⟩
  have hstatement : Flush (optional isGlobal "global" ++ .word "using" :: tokens) text :=
    h.flush_statement hsemicolon
  have habsent : isGlobal = false → ¬ "global".toList <+: text.toList := by
    rintro rfl ⟨behind, hbehind⟩
    obtain ⟨rest, -, hrest, -, -⟩ := Flush.exists_after? hstatement
    have hhead := congrArg List.head? (hbehind.trans hrest)
    exact absurd (Option.some.inj hhead) (by decide)
  have husing := hstatement.afterKeyword (fun rest h => h.flush_trimStart) habsent
  obtain ⟨body, hbody, -, -, hprinted⟩ := husing.exists_after?
  exact ⟨body, hbody, hprinted.flush_trim⟩

/-- A directive is read as the import of everything behind its path, without the letters that are
taken for the keyword. -/
theorem textImports_path (hnames : ∀ name ∈ first :: names, IsIdentifier name)
    (hkeyword : first ≠ "static")
    (h : Printed (usingTokens isGlobal (optional isStatic "static" ++ joined "." (first :: names)))
      s.toList) :
    textImports s = [⟨".".intercalate (firstRead isStatic first :: names), ["*"]⟩] := by
  have hfirst := hnames first List.mem_cons_self
  have hread : IsIdentifier (firstRead isStatic first) := isIdentifier_firstRead hfirst hkeyword
  have hsemicolon :
      ';' ∉ Text.spelling (optional isStatic "static" ++ joined "." (first :: names)) := by
    rw [Text.spelling_append, List.mem_append, not_or]
    exact ⟨Text.not_mem_spelling_optional (by decide),
      Text.not_mem_spelling_joined (by decide) fun name hname => (hnames name hname).not_mem rfl⟩
  obtain ⟨body, hbody, hflush⟩ := exists_body h hsemicolon
  have hpath := (flush_path (fun h => h.flush_trimStart) hflush hfirst hkeyword).printed
  have hequals : '=' ∉ Text.spelling (joined "." (firstRead isStatic first :: names)) := by
    refine Text.not_mem_spelling_joined (by decide) ?_
    rw [List.forall_mem_cons] at hnames ⊢
    exact ⟨hread.not_mem rfl, fun name hname => (hnames.2 name hname).not_mem rfl⟩
  have hnone := hpath.splitFirst?_eq_none (m := "=") rfl rfl hequals
  unfold textImports
  extract_lets text text'
  rw [show Text.after? "using" text' = some body from hbody]
  simp only [hnone, hpath.squeeze_joined]
  rw [if_neg (by simpa using Text.intercalate_ne_empty hread.solid.1)]

/-- A directive that renames is read as the import of its path under the other name, without the
letters that are taken for the keyword. -/
theorem textImports_renamed {other : String} (hother : IsIdentifier other)
    (hkeyword : other ≠ "static") (hnames : ∀ name ∈ first :: names, IsIdentifier name)
    (h : Printed (usingTokens isGlobal (.word other :: .mark "=" :: joined "." (first :: names)))
      s.toList) :
    textImports s = [⟨".".intercalate (first :: names), [firstRead false other]⟩] := by
  have hread : IsIdentifier (firstRead false other) := isIdentifier_firstRead hother hkeyword
  have hsemicolon :
      ';' ∉ Text.spelling (.word other :: .mark "=" :: joined "." (first :: names)) := by
    simp only [Text.spelling, List.flatMap_cons, List.mem_append, not_or]
    exact ⟨hother.not_mem rfl, by decide,
      Text.not_mem_spelling_joined (by decide) fun name hname => (hnames name hname).not_mem rfl⟩
  obtain ⟨body, hbody, hflush⟩ := exists_body h hsemicolon
  have hmark : MarkFollows (.mark "=" :: joined "." (first :: names)) := markFollows_cons rfl rfl _
  have hrenamed :
      Flush ([.word (firstRead false other)] ++ .mark "=" :: joined "." (first :: names))
      (((Text.after? "static" (Text.trim body)).map Text.trimStart).getD (Text.trim body)) :=
    flush_afterStatic (fun h => h.flush_trimStart) hflush hother hkeyword hmark
  have hequals : '=' ∉ Text.spelling [.word (firstRead false other)] := by
    simpa [Text.spelling, Token.text] using hread.not_mem rfl
  obtain ⟨front, rest, hcut, hfront, hrest⟩ :=
    hrenamed.printed.exists_splitFirst? rfl rfl hequals
  unfold textImports
  extract_lets text text'
  rw [show Text.after? "using" text' = some body from hbody]
  simp only [hcut, hfront.trim_eq, hrest.squeeze_joined]
  rw [if_neg (by simpa using Text.intercalate_ne_empty (hnames first List.mem_cons_self).solid.1)]

end Reading

end CSharp

/-! ## Reading back -/

section Statements

variable {source : String} {place : Place} {first : String} {names : List String}

theorem java_importEntries :
    java.importEntries source place = Java.textImports (place.node.text source) := by
  simp only [java, Java.importEntries]

theorem cSharp_importEntries :
    cSharp.importEntries source place = CSharp.textImports (place.node.text source) := by
  simp only [cSharp, CSharp.importEntries]

/-- Statements are read back from their text exactly if their first name survives: an import
declaration of Java as its last part, an identifier or the star, from the path in front of it, and a
using directive of C# as everything behind its path, or as its path under another name. -/
theorem importEntries_printed (hnames : ∀ name ∈ first :: names, IsIdentifier name)
    (hfirst : first ≠ "static") :
    (∀ isStatic last, IsIdentifier last ∨ last = "*" →
      Printed (Java.importTokens isStatic (first :: (names ++ [last])))
        (place.node.text source).toList →
      (java.importEntries source place = [⟨".".intercalate (first :: names), [last]⟩] ↔
        KeepsFirst isStatic first)) ∧
    (∀ isGlobal isStatic,
      Printed (CSharp.usingTokens isGlobal
          (optional isStatic "static" ++ joined "." (first :: names)))
        (place.node.text source).toList →
      (cSharp.importEntries source place = [⟨".".intercalate (first :: names), ["*"]⟩] ↔
        KeepsFirst isStatic first)) ∧
    (∀ isGlobal other, IsIdentifier other → other ≠ "static" →
      Printed (CSharp.usingTokens isGlobal
          (.word other :: .mark "=" :: joined "." (first :: names)))
        (place.node.text source).toList →
      (cSharp.importEntries source place = [⟨".".intercalate (first :: names), [other]⟩] ↔
        KeepsFirst false other)) := by
  refine ⟨?_, ?_, ?_⟩
  · intro isStatic last hlast h
    rw [java_importEntries, Java.textImports_printed hnames hfirst hlast h]
    simp only [List.cons.injEq, Import.mk.injEq, and_true, Text.intercalate_cons_inj,
      firstRead_eq_iff]
  · intro isGlobal isStatic h
    rw [cSharp_importEntries, CSharp.textImports_path hnames hfirst h]
    simp only [List.cons.injEq, Import.mk.injEq, and_true, Text.intercalate_cons_inj,
      firstRead_eq_iff]
  · intro isGlobal other hother hkeyword h
    rw [cSharp_importEntries, CSharp.textImports_renamed hother hkeyword hnames h]
    simp only [List.cons.injEq, Import.mk.injEq, and_true, true_and, firstRead_eq_iff]

end Statements

/-! ### Samples -/

private def starText : String := "import static\n  a. globals .* ;"

private def globalText : String := "global using a .globals;"

private def renamedText : String := "using imports=a.globals;"

private def wholeText (kind text : String) : Place :=
  ⟨Sample.construct 0 kind 0 (Text.byteLength text.toList) [], none⟩

/-- Layout makes no difference, and neither does a name with the letters of another keyword. -/
theorem importEntries_printed_sample :
    (∀ name ∈ ["a", "globals"], IsIdentifier name) ∧
    java.importEntries starText (wholeText "import_declaration" starText) =
      [⟨"a.globals", ["*"]⟩] ∧
    cSharp.importEntries globalText (wholeText "using_directive" globalText) =
      [⟨"a.globals", ["*"]⟩] ∧
    cSharp.importEntries renamedText (wholeText "using_directive" renamedText) =
      [⟨"a.globals", ["imports"]⟩] := by
  have hnames : ∀ name ∈ ["a", "globals"], IsIdentifier name := by decide
  have hstar : Text.IsLayout "" [("", .word "import"), (" ", .word "static"), ("\n  ", .word "a"),
      ("", .mark "."), (" ", .word "globals"), (" ", .mark "."), ("", .word "*"),
      (" ", .mark ";")] := by decide
  have hglobal : Text.IsLayout "" [("", .word "global"), (" ", .word "using"), (" ", .word "a"),
      (" ", .mark "."), ("", .word "globals"), ("", .mark ";")] := by decide
  have hrenamed : Text.IsLayout "" [("", .word "using"), (" ", .word "imports"), ("", .mark "="),
      ("", .word "a"), ("", .mark "."), ("", .word "globals"), ("", .mark ";")] := by decide
  obtain ⟨hjava, -, -⟩ := @importEntries_printed starText (wholeText "import_declaration" starText)
    "a" ["globals"] hnames (by decide)
  obtain ⟨-, hplain, -⟩ := @importEntries_printed globalText
    (wholeText "using_directive" globalText) "a" ["globals"] hnames (by decide)
  obtain ⟨-, -, hother⟩ := @importEntries_printed renamedText
    (wholeText "using_directive" renamedText) "a" ["globals"] hnames (by decide)
  refine ⟨hnames, ?_, ?_, ?_⟩
  · exact (hjava true "*" (.inr rfl) (Text.printed_layout hstar)).2 (by decide)
  · exact (hplain true false (Text.printed_layout hglobal)).2 (by decide)
  · exact (hother false "imports" (by decide) (by decide) (Text.printed_layout hrenamed)).2
      (by decide)

private def staticNameText : String := "import staticx.Foo;"

private def staticUsingText : String := "using staticfoo.Bar;"

/-- A name that begins with the letters of the keyword loses them. -/
theorem importEntries_staticNames :
    Printed (Java.importTokens false ["staticx", "Foo"]) staticNameText.toList ∧
    java.importEntries staticNameText (wholeText "import_declaration" staticNameText) =
      [⟨"x", ["Foo"]⟩] ∧
    Printed (CSharp.usingTokens false (joined "." ["staticfoo", "Bar"])) staticUsingText.toList ∧
    cSharp.importEntries staticUsingText (wholeText "using_directive" staticUsingText) =
      [⟨"foo.Bar", ["*"]⟩] := by
  have hjava : Text.IsLayout "" [("", .word "import"), (" ", .word "staticx"), ("", .mark "."),
      ("", .word "Foo"), ("", .mark ";")] := by decide
  have hcSharp : Text.IsLayout "" [("", .word "using"), (" ", .word "staticfoo"), ("", .mark "."),
      ("", .word "Bar"), ("", .mark ";")] := by decide
  have hprinted : Printed (Java.importTokens false ("staticx" :: ([] ++ ["Foo"])))
      ((wholeText "import_declaration" staticNameText).node.text staticNameText).toList :=
    Text.printed_layout hjava
  have hread := Java.textImports_printed (by decide) (by decide) (.inl (by decide)) hprinted
  refine ⟨Text.printed_layout hjava, ?_, Text.printed_layout hcSharp, by decide⟩
  rw [java_importEntries, hread]
  decide

end SourceChunks.Language
