-- SUMMARY: Statements printed from tokens, with any white space between them, and reading them back piece by piece.
import SourceChunks.Proofs.Text.Blank
import SourceChunks.Proofs.Text.Split

/-!
# Printed statements

A statement is a list of tokens, and a text prints it if it shows the tokens one after the other
with white space before, between and behind them as one likes; only two words may not touch. Taking
white space or a token off either end of such a text leaves a text that prints the tokens left, so a
reader that takes a statement apart step by step can be followed on its tokens.
-/

namespace SourceChunks.Text

/-! ## Tokens -/

/-- A token of a statement. -/
inductive Token where
  /-- A word, which does not touch a word behind it. -/
  | word (text : String)
  /-- A word with a plain space, and no other white space, right in front of what follows it. -/
  | spaced (text : String)
  /-- A mark, which may touch its neighbours. -/
  | mark (text : String)

namespace Token

def text : Token → String
  | word text | spaced text | mark text => text

def isWord : Token → Bool
  | word _ | spaced _ => true
  | mark _ => false

/-- Whether the text behind a token, which prints `tokens`, keeps it apart from them. -/
def ApartFrom (tokens : List Token) (rest : List Char) : Token → Prop
  | word _ => ∀ next ∈ tokens.head?, next.isWord = true → ∃ c ∈ rest.head?, isBlank c = true
  | spaced _ => tokens ≠ [] → rest.head? = some ' '
  | mark _ => True

instance (tokens : List Token) (rest : List Char) (token : Token) :
    Decidable (token.ApartFrom tokens rest) :=
  match token with
  | word _ =>
    -- decided on the character itself, not over all characters
    have : Decidable (∃ c ∈ rest.head?, isBlank c = true) := Option.decidableExistsMem _
    inferInstanceAs (Decidable (∀ next ∈ tokens.head?, next.isWord = true →
      ∃ c ∈ rest.head?, isBlank c = true))
  | spaced _ => inferInstanceAs (Decidable (tokens ≠ [] → rest.head? = some ' '))
  | mark _ => inferInstanceAs (Decidable True)

end Token

/-- A text that is not empty and holds no white space. -/
def IsSolid (s : String) : Prop :=
  s.toList ≠ [] ∧ ∀ c ∈ s.toList, isBlank c = false

instance (s : String) : Decidable (IsSolid s) :=
  have : Decidable (∀ c ∈ s.toList, isBlank c = false) := List.decidableBAll _ _
  inferInstanceAs (Decidable (_ ∧ _))

/-- The characters of tokens without anything between them. -/
def spelling (tokens : List Token) : List Char :=
  tokens.flatMap (·.text.toList)

/-- A text that shows tokens in their order, with white space around them. -/
inductive Printed : List Token → List Char → Prop
  | nil {gap : List Char} (hgap : ∀ c ∈ gap, isBlank c = true) : Printed [] gap
  | cons {gap rest : List Char} {token : Token} {tokens : List Token}
      (hgap : ∀ c ∈ gap, isBlank c = true) (hsolid : IsSolid token.text)
      (hapart : token.ApartFrom tokens rest) (h : Printed tokens rest) :
      Printed (token :: tokens) (gap ++ (token.text.toList ++ rest))

/-- Tokens with the white space in front of each, and the white space behind the last, as a text. -/
def layout (last : String) : List (String × Token) → List Char
  | [] => last.toList
  | (gap, token) :: parts => gap.toList ++ (token.text.toList ++ layout last parts)

/-- Whether a layout prints its tokens. -/
def IsLayout (last : String) : List (String × Token) → Prop
  | [] => isBlankText last = true
  | (gap, token) :: parts =>
    isBlankText gap = true ∧ IsSolid token.text ∧
      token.ApartFrom (parts.map (·.2)) (layout last parts) ∧ IsLayout last parts

instance (last : String) : (parts : List (String × Token)) → Decidable (IsLayout last parts)
  | [] => inferInstanceAs (Decidable (_ = true))
  | (_, _) :: parts =>
    have := instDecidableIsLayout last parts
    inferInstanceAs (Decidable (_ ∧ _ ∧ _ ∧ IsLayout last parts))

theorem printed_layout {last : String} {parts : List (String × Token)} (h : IsLayout last parts) :
    Printed (parts.map (·.2)) (layout last parts) := by
  induction parts with
  | nil => exact .nil (List.all_eq_true.1 h)
  | cons part parts ih =>
      obtain ⟨hgap, hsolid, hapart, hparts⟩ := h
      exact .cons (List.all_eq_true.1 hgap) hsolid hapart (ih hparts)

namespace Printed

variable {tokens : List Token} {cs : List Char}

/-- Without its white space a printed text spells its tokens. -/
theorem filter_eq (h : Printed tokens cs) : cs.filter (!isBlank ·) = spelling tokens := by
  induction h with
  | nil hgap => simpa [spelling] using hgap
  | @cons gap rest token tokens hgap hsolid _ _ ih =>
      have hnone : gap.filter (!isBlank ·) = [] := by simpa using hgap
      have hall : token.text.toList.filter (!isBlank ·) = token.text.toList := by
        simpa using hsolid.2
      rw [List.filter_append, List.filter_append, hnone, hall, ih, List.nil_append]
      rfl

theorem squeeze_eq {s : String} (h : Printed tokens s.toList) :
    squeeze s = .ofList (spelling tokens) := by
  rw [← String.toList_inj, toList_squeeze, h.filter_eq, String.toList_ofList]

/-- A character that is no white space comes from a token. -/
theorem mem_spelling {c : Char} (h : Printed tokens cs) (hc : c ∈ cs) (hblank : isBlank c = false) :
    c ∈ spelling tokens := by
  rw [← h.filter_eq, List.mem_filter]
  exact ⟨hc, by simp [hblank]⟩

/-! ### White space at the ends -/

/-- A text that prints a token is more than white space. -/
theorem exists_not_blank {token : Token} (h : Printed (token :: tokens) cs) :
    ∃ c ∈ cs, isBlank c = false := by
  cases h with
  | cons hgap hsolid hapart h =>
      obtain ⟨c, hc⟩ := List.exists_mem_of_ne_nil _ hsolid.1
      exact ⟨c, by simp [hc], hsolid.2 c hc⟩

/-- What keeps a token apart from the tokens behind it is the beginning of what is printed there. -/
theorem apartFrom {token : Token} {more : List Token} {rest : List Char} (h : Printed tokens cs)
    (hapart : token.ApartFrom (tokens ++ more) (cs ++ rest)) : token.ApartFrom tokens cs := by
  cases tokens with
  | nil => cases token <;> simp [Token.ApartFrom]
  | cons next tokens =>
      obtain ⟨c, hc, -⟩ := h.exists_not_blank
      have hhead : (cs ++ rest).head? = cs.head? :=
        List.head?_append_of_ne_nil _ (List.ne_nil_of_mem hc)
      cases token with
      | word text =>
          intro next hnext hword
          rw [← hhead]
          exact hapart next hnext hword
      | spaced text =>
          intro _
          rw [← hhead]
          exact hapart (List.cons_ne_nil _ _)
      | mark text => trivial

theorem of_cons_blank {c : Char} (h : Printed tokens (c :: cs)) (hc : isBlank c = true) :
    Printed tokens cs := by
  generalize hds : c :: cs = ds at h
  cases h with
  | nil hgap =>
      subst hds
      exact .nil fun d hd => hgap d (List.mem_cons_of_mem c hd)
  | @cons gap rest token tokens hgap hsolid hapart h =>
      cases gap with
      | nil =>
          -- the token would begin with white space
          obtain ⟨d, word, hword⟩ := List.exists_cons_of_ne_nil hsolid.1
          rw [hword, List.nil_append, List.cons_append, List.cons.injEq] at hds
          have hd := hsolid.2 d (hword ▸ List.mem_cons_self)
          rw [← hds.1, hc] at hd
          cases hd
      | cons d gap =>
          rw [List.cons_append, List.cons.injEq] at hds
          rw [hds.2]
          exact .cons (fun e he => hgap e (List.mem_cons_of_mem d he)) hsolid hapart h

theorem of_concat_blank {c : Char} (h : Printed tokens (cs ++ [c])) (hc : isBlank c = true) :
    Printed tokens cs := by
  generalize hds : cs ++ [c] = ds at h
  induction h generalizing cs with
  | nil hgap =>
      subst hds
      exact .nil fun d hd => hgap d (List.mem_append_left _ hd)
  | @cons gap rest token tokens hgap hsolid hapart h ih =>
      rcases List.eq_nil_or_concat rest with rfl | ⟨rest', d, rfl⟩
      · -- the token would end in white space
        rw [List.append_nil] at hds
        have hlast := congrArg List.getLast? hds
        rw [List.getLast?_concat, List.getLast?_append_of_ne_nil _ hsolid.1] at hlast
        rw [hsolid.2 c (List.mem_of_getLast? hlast.symm)] at hc
        cases hc
      · rw [List.concat_eq_append] at *
        rw [← List.append_assoc, ← List.append_assoc] at hds
        obtain ⟨rfl, hcd⟩ := List.append_inj' hds rfl
        obtain rfl : c = d := by simpa using hcd
        rw [List.append_assoc]
        refine .cons hgap hsolid ?_ (ih rfl)
        exact (ih rfl).apartFrom (by rwa [List.append_nil])

theorem of_blank_append {gap : List Char} (hgap : ∀ c ∈ gap, isBlank c = true)
    (h : Printed tokens (gap ++ cs)) : Printed tokens cs := by
  induction gap with
  | nil => exact h
  | cons c gap ih =>
      rw [List.forall_mem_cons] at hgap
      exact ih hgap.2 (of_cons_blank h hgap.1)

theorem of_append_blank {gap : List Char} (hgap : ∀ c ∈ gap, isBlank c = true)
    (h : Printed tokens (cs ++ gap)) : Printed tokens cs := by
  induction gap generalizing cs with
  | nil => rwa [List.append_nil] at h
  | cons c gap ih =>
      rw [List.forall_mem_cons] at hgap
      rw [← List.singleton_append, ← List.append_assoc] at h
      exact of_concat_blank (ih hgap.2 h) hgap.1

theorem trim {s : String} (h : Printed tokens s.toList) : Printed tokens (trim s).toList := by
  obtain ⟨before, behind, hbefore, hbehind, hs⟩ := exists_trim s
  rw [hs] at h
  exact of_append_blank hbehind (of_blank_append hbefore h)

/-! ### Tokens at the ends -/

theorem isSolid_head {token : Token} (h : Printed (token :: tokens) cs) : IsSolid token.text := by
  cases h with
  | cons hgap hsolid hapart h => exact hsolid

theorem exists_rest {token : Token} (h : Printed (token :: tokens) cs)
    (hhead : ∀ c ∈ cs.head?, isBlank c = false) :
    ∃ rest, cs = token.text.toList ++ rest ∧ token.ApartFrom tokens rest ∧ Printed tokens rest := by
  cases h with
  | @cons gap rest _ _ hgap _ hapart h =>
      cases gap with
      | nil => exact ⟨rest, rfl, hapart, h⟩
      | cons c gap =>
          have hc := hgap c List.mem_cons_self
          rw [hhead c rfl] at hc
          cases hc

/-- A mark splits a printed text. -/
theorem exists_split {m : String} {before behind : List Token}
    (h : Printed (before ++ .mark m :: behind) cs) :
    ∃ ds es, cs = ds ++ (m.toList ++ es) ∧ Printed before ds ∧ Printed behind es := by
  induction before generalizing cs with
  | nil =>
      cases h with
      | @cons gap rest _ _ hgap _ _ h => exact ⟨gap, rest, rfl, .nil hgap, h⟩
  | cons token before ih =>
      cases h with
      | @cons gap rest _ _ hgap hsolid hapart h =>
          obtain ⟨ds, es, rfl, hds, hes⟩ := ih h
          refine ⟨gap ++ (token.text.toList ++ ds), es, by simp, ?_, hes⟩
          exact .cons hgap hsolid (hds.apartFrom hapart) hds

/-- The end of a text that prints no more tokens is white space. -/
theorem eq_nil (h : Printed [] cs) (hlast : ∀ c ∈ cs.getLast?, isBlank c = false) : cs = [] := by
  cases h with
  | nil hgap =>
      rcases List.eq_nil_or_concat cs with rfl | ⟨cs, c, rfl⟩
      · rfl
      · have hc := hgap c (by simp)
        rw [hlast c (by simp)] at hc
        cases hc

theorem exists_init {m : String} (h : Printed (tokens ++ [.mark m]) cs)
    (hlast : ∀ c ∈ cs.getLast?, isBlank c = false) :
    ∃ ds, cs = ds ++ m.toList ∧ Printed tokens ds := by
  obtain ⟨ds, es, rfl, hds, hes⟩ := h.exists_split
  have hnil : es = [] := by
    refine hes.eq_nil fun c hc => hlast c ?_
    rw [List.getLast?_append, List.getLast?_append, Option.mem_def.1 hc]
    exact rfl
  exact ⟨ds, by rw [hnil, List.append_nil], hds⟩

/-- A text that prints one word is that word with white space around it. -/
theorem trim_eq {w s : String} (h : Printed [.word w] s.toList) : Text.trim s = w := by
  obtain ⟨hhead, hlast⟩ := trimmed_trim s
  obtain ⟨rest, hrest, -, hnil⟩ := h.trim.exists_rest hhead
  have hrest' : rest = [] := by
    refine hnil.eq_nil fun c hc => hlast c ?_
    rw [hrest, List.getLast?_append, Option.mem_def.1 hc]
    exact rfl
  rw [hrest', List.append_nil] at hrest
  exact String.toList_inj.1 hrest

/-- A text that prints words has these words. -/
theorem words_eq {names : List String} {s : String} (h : Printed (names.map .word) s.toList) :
    words s = names := by
  rw [← String.ofList_toList (s := s)]
  generalize s.toList = cs at h
  induction names generalizing cs with
  | nil =>
      cases h with
      | nil hgap => simpa [words, piecesBetween] using words_blank_append hgap []
  | cons name names ih =>
      cases h with
      | @cons gap rest _ _ hgap hsolid hapart h =>
          have hrest : ∀ c ∈ rest.head?, isBlank c = true := by
            intro c hc
            cases names with
            | nil =>
                cases h with
                | nil hgap => exact hgap c (List.mem_of_mem_head? hc)
            | cons next names =>
                obtain ⟨d, hd, hblank⟩ := hapart (.word next) rfl rfl
                rwa [Option.mem_unique hc hd]
          have hcut := words_cons hsolid.1 hsolid.2 hrest
          rw [words_blank_append hgap, hcut, ih _ h]
          exact congrArg (· :: names) String.ofList_toList

end Printed

/-! ## Names joined by marks -/

/-- The characters that import statements use as marks. -/
def isMark (c : Char) : Bool :=
  ['.', ',', ';', ':', '=', '*', '\\', '\x7b', '\x7d'].contains c

/-- What can be an identifier of an import statement: any text without white space and marks. -/
structure IsIdentifier (s : String) : Prop where
  solid : IsSolid s
  plain : ∀ c ∈ s.toList, isMark c = false

instance (s : String) : Decidable (IsIdentifier s) :=
  have : Decidable (∀ c ∈ s.toList, isMark c = false) := List.decidableBAll _ _
  decidable_of_iff (IsSolid s ∧ ∀ c ∈ s.toList, isMark c = false)
    ⟨fun h => ⟨h.1, h.2⟩, fun h => ⟨h.1, h.2⟩⟩

theorem IsIdentifier.not_mem {s : String} (h : IsIdentifier s) {c : Char} (hc : isMark c = true) :
    c ∉ s.toList := by
  intro hmem
  rw [h.plain c hmem] at hc
  cases hc

def AllIdentifiers (segments : List String) : Prop :=
  ∀ segment ∈ segments, IsIdentifier segment

theorem AllIdentifiers.append {base segments : List String} (hbase : AllIdentifiers base)
    (hsegments : AllIdentifiers segments) : AllIdentifiers (base ++ segments) := by
  intro segment hsegment
  rcases List.mem_append.1 hsegment with h | h
  · exact hbase segment h
  · exact hsegments segment h

theorem AllIdentifiers.intercalate_ne_empty {sep : String} {segments : List String}
    (h : AllIdentifiers segments) (hne : segments ≠ []) : sep.intercalate segments ≠ "" := by
  obtain ⟨first, rest, rfl⟩ := List.exists_cons_of_ne_nil hne
  exact Text.intercalate_ne_empty (h first List.mem_cons_self).solid.1

/-- What an item is imported from: its path without the last segment, if anything is left. -/
def moduleOf (segments : List String) : List String :=
  if segments.dropLast = [] then segments else segments.dropLast

/-- The name that a path binds: its last segment. -/
def nameOf (segments : List String) : String :=
  segments.getLastD ""

theorem dropLast_append_nameOf {segments : List String} (hne : segments ≠ []) :
    segments.dropLast ++ [nameOf segments] = segments := by
  rw [nameOf, List.getLastD_eq_getLast?, List.getLast?_eq_some_getLast hne, Option.getD_some,
    List.dropLast_append_getLast]

theorem AllIdentifiers.dropLast {segments : List String} (h : AllIdentifiers segments) :
    AllIdentifiers segments.dropLast :=
  fun segment hsegment => h segment (List.dropLast_subset _ hsegment)

theorem AllIdentifiers.nameOf {segments : List String} (h : AllIdentifiers segments)
    (hne : segments ≠ []) : IsIdentifier (nameOf segments) := by
  have hmem : Text.nameOf segments ∈ segments.dropLast ++ [Text.nameOf segments] := by simp
  rw [dropLast_append_nameOf hne] at hmem
  exact h _ hmem

theorem intercalate_eq_nameOf {sep : String} {segments : List String} (hne : segments ≠ [])
    (hone : segments.dropLast = []) : sep.intercalate segments = nameOf segments := by
  rw [← dropLast_append_nameOf hne, hone]
  simp [nameOf]

/-- The last separator of a path stands in front of its last segment. -/
theorem splitLast?_segments {sep : String} {c : Char} (hc : sep.toList.getLast? = some c)
    (hmark : isMark c = true) {segments : List String} (h : AllIdentifiers segments)
    (hne : segments ≠ []) :
    splitLast? sep (sep.intercalate segments) =
      if segments.dropLast = [] then none
      else some (sep.intercalate segments.dropLast, nameOf segments) := by
  have hlast : c ∉ (nameOf segments).toList := (h.nameOf hne).not_mem hmark
  by_cases hparts : segments.dropLast = []
  · rw [if_pos hparts, intercalate_eq_nameOf hne hparts, splitLast?_of_not_mem hc hlast]
  · rw [if_neg hparts]
    nth_rewrite 1 [← dropLast_append_nameOf hne]
    exact splitLast?_intercalate hc hparts hlast

/-- Names with a mark between each two of them. -/
def joined (m : String) (names : List String) : List Token :=
  [.mark m].intercalate (names.map fun name => [.word name])

theorem spelling_append (tokens more : List Token) :
    spelling (tokens ++ more) = spelling tokens ++ spelling more :=
  List.flatMap_append

theorem spelling_intercalate (sep : List Token) (parts : List (List Token)) :
    spelling (sep.intercalate parts) = (spelling sep).intercalate (parts.map spelling) := by
  induction parts with
  | nil => rfl
  | cons part parts ih =>
      cases parts with
      | nil => simp
      | cons next parts =>
          rw [List.intercalate_cons_cons, spelling_append, spelling_append, ih, List.map_cons,
            List.map_cons, List.map_cons, List.intercalate_cons_cons]

theorem spelling_joined (m : String) (names : List String) :
    spelling (joined m names) = (m.intercalate names).toList := by
  have hword (name : String) : spelling [.word name] = name.toList := by simp [spelling, Token.text]
  have hmark : spelling [.mark m] = m.toList := by simp [spelling, Token.text]
  rw [joined, spelling_intercalate, hmark, List.map_map, String.toList_intercalate]
  exact congrArg _ (List.map_congr_left fun name _ => hword name)

/-- Joined names are read back as they are, whatever white space is between them. -/
theorem Printed.squeeze_joined {m s : String} {names : List String}
    (h : Printed (joined m names) s.toList) : squeeze s = m.intercalate names := by
  rw [h.squeeze_eq, spelling_joined, String.ofList_toList]

/-- The names behind the first one, each with its mark. -/
theorem joined_cons (m first : String) (names : List String) :
    joined m (first :: names) =
      .word first :: names.flatMap fun name => [.mark m, .word name] := by
  induction names generalizing first with
  | nil => rfl
  | cons name names ih =>
      rw [joined, List.map_cons, List.map_cons, List.intercalate_cons_cons]
      exact congrArg (.word first :: .mark m :: ·) (ih name)

theorem not_mem_spelling_intercalate {sep : List Token} {parts : List (List Token)} {c : Char}
    (hsep : c ∉ spelling sep) (hparts : ∀ part ∈ parts, c ∉ spelling part) :
    c ∉ spelling (sep.intercalate parts) := by
  induction parts with
  | nil => exact List.not_mem_nil
  | cons part parts ih =>
      rw [List.forall_mem_cons] at hparts
      cases parts with
      | nil => simpa using hparts.1
      | cons next parts =>
          rw [List.intercalate_cons_cons, spelling_append, spelling_append, List.mem_append,
            List.mem_append, not_or, not_or]
          exact ⟨⟨hparts.1, hsep⟩, ih hparts.2⟩

theorem not_mem_spelling_joined {m : String} {names : List String} {c : Char}
    (hm : c ∉ m.toList) (hnames : ∀ name ∈ names, c ∉ name.toList) :
    c ∉ spelling (joined m names) := by
  refine not_mem_spelling_intercalate (by simpa [spelling, Token.text] using hm) ?_
  intro part hpart
  obtain ⟨name, hname, rfl⟩ := List.mem_map.1 hpart
  simpa [spelling, Token.text] using hnames name hname

/-! ## Steps of a reader -/

/-- A text that prints tokens without white space in front of them. -/
structure Flush (tokens : List Token) (s : String) : Prop where
  printed : Printed tokens s.toList
  head : ∀ c ∈ s.toList.head?, isBlank c = false

/-- A word that may be left out. -/
def optional (present : Bool) (word : String) : List Token :=
  if present then [.word word] else []

theorem not_mem_spelling_optional {present : Bool} {word : String} {c : Char}
    (h : c ∉ word.toList) : c ∉ spelling (optional present word) := by
  cases present with
  | true => simpa [optional, spelling, Token.text] using h
  | false => exact List.not_mem_nil

section Steps

variable {tokens : List Token} {s : String}

theorem Printed.flush_trim (h : Printed tokens s.toList) : Flush tokens (Text.trim s) :=
  ⟨h.trim, (trimmed_trim s).1⟩

theorem Printed.flush_trimStart (h : Printed tokens s.toList) :
    Flush tokens (Text.trimStart s) := by
  have hgap : ∀ c ∈ s.toList.takeWhile isBlank, isBlank c = true := by
    intro c hc
    exact List.all_eq_true.1 List.all_takeWhile c hc
  rw [← List.takeWhile_append_dropWhile (p := isBlank) (l := s.toList)] at h
  refine ⟨?_, ?_⟩
  · rw [trimStart, dropStartWhile, String.toList_ofList]
    exact .of_blank_append hgap h
  · intro c hc
    rw [trimStart, dropStartWhile, String.toList_ofList] at hc
    exact not_of_mem_head?_dropWhile hc

theorem Flush.exists_after? {token : Token} (h : Flush (token :: tokens) s) :
    ∃ rest : String, after? token.text s = some rest ∧ s.toList = token.text.toList ++ rest.toList ∧
      token.ApartFrom tokens rest.toList ∧ Printed tokens rest.toList := by
  obtain ⟨rest, hs, hapart, hrest⟩ := h.printed.exists_rest h.head
  refine ⟨.ofList rest, after?_of_append hs, ?_⟩
  rw [String.toList_ofList]
  exact ⟨hs, hapart, hrest⟩

/-- The text of a word ends where white space follows, or a mark, or nothing. -/
theorem Flush.takeWhile_eq {word : String} {p : Char → Bool} (h : Flush (.word word :: tokens) s)
    (hword : ∀ c ∈ word.toList, p c = true) (hblank : ∀ c, isBlank c = true → p c = false)
    (hmark : ∀ m, tokens.head? = some (.mark m) → ∀ c ∈ m.toList.head?, p c = false) :
    s.toList.takeWhile p = word.toList := by
  obtain ⟨rest, -, hs, hapart, hrest⟩ := h.exists_after?
  have hstop : ∀ c ∈ rest.toList.head?, p c = false := by
    intro c hc
    generalize rest.toList = cs at hc hapart hrest
    cases hrest with
    | nil hgap => exact hblank c (hgap c (List.mem_of_mem_head? hc))
    | @cons gap rest token tokens hgap hsolid _ _ =>
        cases gap with
        | cons d gap =>
            obtain rfl : d = c := by simpa using hc
            exact hblank d (hgap d List.mem_cons_self)
        | nil =>
            -- the next token is no word, as it touches this one
            rw [List.nil_append, List.head?_append_of_ne_nil _ hsolid.1] at hc
            have htouch : token.isWord = false := by
              by_contra hnext
              obtain ⟨d, hd, hd'⟩ := hapart token rfl (by simpa using hnext)
              rw [List.nil_append, List.head?_append_of_ne_nil _ hsolid.1] at hd
              rw [hsolid.2 d (List.mem_of_mem_head? hd)] at hd'
              cases hd'
            cases token with
            | word text => cases htouch
            | spaced text => cases htouch
            | mark text => exact hmark text rfl c hc
  change s.toList = word.toList ++ rest.toList at hs
  rw [hs, List.takeWhile_append_of_pos hword]
  cases hcs : rest.toList with
  | nil => simp
  | cons c cs => simp [hstop c (by rw [hcs]; rfl)]

theorem isPrefix_takeWhile {p : Char → Bool} {lead cs : List Char} (hlead : lead.all p = true)
    (h : lead <+: cs) : lead <+: cs.takeWhile p := by
  obtain ⟨rest, rfl⟩ := h
  rw [List.takeWhile_append_of_pos (List.all_eq_true.1 hlead)]
  exact List.prefix_append lead _

/-- Reading past a keyword that may be left out. A text without it must not begin with its
letters. -/
theorem Flush.afterKeyword {keyword : String} {present : Bool} {f : String → String}
    (hf : ∀ rest : String, Printed tokens rest.toList → Flush tokens (f rest))
    (h : Flush (optional present keyword ++ tokens) s)
    (habsent : present = false → ¬ keyword.toList <+: s.toList) :
    Flush tokens (((after? keyword s).map f).getD s) := by
  cases present with
  | true =>
      obtain ⟨rest, hafter, -, -, hrest⟩ := h.exists_after?
      rw [show after? keyword s = some rest from hafter]
      exact hf rest hrest
  | false =>
      rw [after?_eq_none (habsent rfl)]
      exact h

/-- Reading up to a closing mark. -/
theorem Printed.dropEndWhile_mark {m : String} {c : Char} (hm : m.toList = [c])
    (h : Printed (tokens ++ [.mark m]) s.toList)
    (hlast : ∀ d ∈ s.toList.getLast?, isBlank d = false) (hc : c ∉ spelling tokens) :
    Printed tokens (dropEndWhile (· == c) s).toList := by
  obtain ⟨cs, hs, hcs⟩ := h.exists_init hlast
  rw [hm] at hs
  have hblank : isBlank c = false := hlast c (by rw [hs]; simp)
  have hnot : ∀ d ∈ cs.getLast?, d ≠ c := by
    rintro d hd rfl
    exact hc (hcs.mem_spelling (List.mem_of_getLast? hd) hblank)
  rw [dropEndWhile_of_append hs hnot, String.toList_ofList]
  exact hcs

/-- A mark that no token in front of it holds is the first one in the text. -/
theorem Printed.exists_splitFirst? {m : String} {c : Char} (hm : m.toList = [c])
    {before behind : List Token} (h : Printed (before ++ .mark m :: behind) s.toList)
    (hblank : isBlank c = false) (hc : c ∉ spelling before) :
    ∃ front rest : String, splitFirst? m s = some (front, rest) ∧ Printed before front.toList ∧
      Printed behind rest.toList := by
  obtain ⟨ds, es, hs, hds, hes⟩ := h.exists_split
  have hnot : c ∉ ds := fun hmem => hc (hds.mem_spelling hmem hblank)
  refine ⟨.ofList ds, .ofList es, splitFirst?_append (by rw [hm]; rfl) hs hnot, ?_, ?_⟩
  · rwa [String.toList_ofList]
  · rwa [String.toList_ofList]

theorem Printed.splitFirst?_eq_none {m : String} {c : Char} (hm : m.toList = [c])
    (h : Printed tokens s.toList) (hblank : isBlank c = false) (hc : c ∉ spelling tokens) :
    splitFirst? m s = none :=
  splitFirst?_of_not_mem (by rw [hm]; rfl) fun hmem => hc (h.mem_spelling hmem hblank)

/-- A mark that no part holds separates a text into the parts. -/
theorem Printed.splitAt_intercalate {m : String} {c : Char} (hm : m.toList = [c])
    (hblank : isBlank c = false) {parts : List (List Token)} (hne : parts ≠ [])
    (hparts : ∀ part ∈ parts, c ∉ spelling part)
    (h : Printed ([.mark m].intercalate parts) s.toList) :
    List.Forall₂ (fun part piece => Printed part piece.toList) parts (splitAt c s) := by
  have hstop {part : List Token} {cs : List Char} (hpart : c ∉ spelling part)
      (hcs : Printed part cs) : piecesBetween (· == c) cs = [cs] := by
    refine piecesBetween_of_forall fun d hd => ?_
    simpa using fun hdc : d = c => hpart (hcs.mem_spelling (hdc ▸ hd) hblank)
  rw [splitAt]
  generalize s.toList = cs at h
  induction parts generalizing cs with
  | nil => exact absurd rfl hne
  | cons part parts ih =>
      rw [List.forall_mem_cons] at hparts
      cases parts with
      | nil =>
          rw [List.intercalate_singleton] at h
          rw [hstop hparts.1 h]
          exact .cons (by rwa [String.toList_ofList]) .nil
      | cons next parts =>
          rw [List.intercalate_cons_cons, List.append_assoc] at h
          obtain ⟨ds, es, rfl, hds, hes⟩ := Printed.exists_split h
          rw [hm, List.singleton_append, piecesBetween_append (by simp), hstop hparts.1 hds]
          exact .cons (by rwa [String.toList_ofList]) (ih (List.cons_ne_nil _ _) hparts.2 es hes)

/-- Text without white space put in front of a word becomes part of it. -/
theorem Flush.append_word {word lead : String} (h : Flush (.word word :: tokens) s)
    (hlead : ∀ c ∈ lead.toList, isBlank c = false) :
    Printed (.word (lead ++ word) :: tokens) (lead ++ s).toList := by
  obtain ⟨rest, -, hs, hapart, hrest⟩ := h.exists_after?
  have hword : IsSolid word := h.printed.isSolid_head
  have hsolid : IsSolid (lead ++ word) := by
    refine ⟨by simp [hword.1], ?_⟩
    rw [String.toList_append, List.forall_mem_append]
    exact ⟨hlead, hword.2⟩
  have hprinted := @Printed.cons [] rest.toList (.word (lead ++ word)) tokens (by simp) hsolid
    hapart hrest
  rw [String.toList_append, hs, ← List.append_assoc]
  simpa [Token.text] using hprinted

/-- Reading a statement without its closing semicolon. -/
theorem Printed.flush_statement (h : Printed (tokens ++ [.mark ";"]) s.toList)
    (hc : ';' ∉ spelling tokens) :
    Flush tokens (Text.trim (dropEndWhile (· == ';') (Text.trim s))) :=
  (h.trim.dropEndWhile_mark rfl (trimmed_trim s).2 hc).flush_trim

end Steps

end SourceChunks.Text
