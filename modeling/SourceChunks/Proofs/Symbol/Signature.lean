-- SUMMARY: Normalised headers: the words of a text on one line, cut behind the last grapheme cluster that fits; a cut may leave a space.
import SourceChunks.Proofs.Symbol
import SourceChunks.Proofs.Text.Collapse

/-!
# Normalised headers

A header is written on one line and cut at a number of characters, but only between grapheme
clusters: what is kept is the longest text that fits and is made of whole clusters. The cut may fall
directly behind a space, which is then kept. A second round takes this space away and nothing else,
so from then on nothing changes.
-/

namespace SourceChunks

/-! ## Between two clusters -/

namespace Text.Grapheme

variable {left c : Char}

theorem exists_lead_of_clustersAfter (hbreak : ∀ cluster, continues (left :: cluster) c = false)
    (cluster before after : List Char) :
    ∃ lead, lead <+: clustersAfter cluster (before ++ left :: c :: after) ∧
      lead.flatten = cluster.reverse ++ (before ++ [left]) := by
  induction before generalizing cluster with
  | nil =>
      -- whether or not `left` begins a cluster, it ends one
      rw [List.nil_append, clustersAfter]
      split
      · refine ⟨[(left :: cluster).reverse], ?_, by simp⟩
        rw [clustersAfter, if_neg (by simp [hbreak])]
        exact ⟨_, rfl⟩
      · refine ⟨[cluster.reverse, [left]], ?_, by simp⟩
        rw [clustersAfter, if_neg (by simp [hbreak])]
        exact ⟨_, rfl⟩
  | cons d before ih =>
      rw [List.cons_append, clustersAfter]
      split
      · obtain ⟨lead, hlead, hflatten⟩ := ih (d :: cluster)
        exact ⟨lead, hlead, by simp [hflatten]⟩
      · obtain ⟨lead, hlead, hflatten⟩ := ih [d]
        refine ⟨cluster.reverse :: lead, ?_, by simp [hflatten]⟩
        exact List.cons_prefix_cons.2 ⟨rfl, hlead⟩

/-- Where a character never belongs to the cluster in front of it, whole clusters end. -/
theorem exists_lead_of_break (hbreak : ∀ cluster, continues (left :: cluster) c = false)
    (before after : List Char) :
    ∃ lead, lead <+: clusters (before ++ left :: c :: after) ∧ lead.flatten = before ++ [left] := by
  cases before with
  | nil =>
      refine ⟨[[left]], ?_, rfl⟩
      rw [List.nil_append, clusters, clustersAfter, if_neg (by simp [hbreak])]
      exact ⟨_, rfl⟩
  | cons d before =>
      obtain ⟨lead, hlead, hflatten⟩ := exists_lead_of_clustersAfter hbreak [d] before after
      exact ⟨lead, hlead, by simpa using hflatten⟩

end Text.Grapheme

namespace Signature

/-! ## The longest part that fits -/

/-- What whole pieces at the start of a list make up within `room` characters, of all such texts the
longest. -/
structure IsLongestFit (room : Nat) (pieces : List (List Char)) (text : List Char) : Prop where
  whole : ∃ lead, lead <+: pieces ∧ lead.flatten = text
  fits : text.length ≤ room
  longest : ∀ lead, lead <+: pieces → lead.flatten.length ≤ room → lead.flatten <+: text

/-- Leading pieces that fit are among those that are kept. -/
theorem isPrefix_fitting {room : Nat} {pieces lead : List (List Char)} (h : lead <+: pieces)
    (hfits : lead.flatten.length ≤ room) : lead <+: fitting room pieces := by
  induction pieces generalizing room lead with
  | nil =>
      obtain rfl := List.prefix_nil.1 h
      exact List.nil_prefix
  | cons piece rest ih =>
      cases lead with
      | nil => exact List.nil_prefix
      | cons first lead =>
          obtain ⟨rfl, hlead⟩ := List.cons_prefix_cons.1 h
          rw [List.flatten_cons, List.length_append] at hfits
          rw [fitting, if_pos (by omega)]
          exact List.cons_prefix_cons.2 ⟨rfl, ih hlead (by omega)⟩

theorem isLongestFit_fitting (room : Nat) (pieces : List (List Char)) :
    IsLongestFit room pieces (fitting room pieces).flatten where
  whole := ⟨_, fitting_isPrefix room pieces, rfl⟩
  fits := length_flatten_fitting_le room pieces
  longest lead hlead hfits := by
    obtain ⟨rest, hrest⟩ := isPrefix_fitting hlead hfits
    exact ⟨rest.flatten, by rw [← List.flatten_append, hrest]⟩

/-- Nothing is kept exactly if the first of several pieces, none of them empty, does not fit. -/
theorem IsLongestFit.eq_nil_iff {room : Nat} {pieces : List (List Char)} {text : List Char}
    (h : IsLongestFit room pieces text) (hne : ∀ piece ∈ pieces, piece ≠ [])
    (hpieces : pieces ≠ []) :
    text = [] ↔ ∃ first ∈ pieces.head?, room < first.length := by
  obtain ⟨first, rest, rfl⟩ := List.exists_cons_of_ne_nil hpieces
  have hfirst : text = [] ↔ room < first.length := by
    constructor
    · rintro rfl
      refine Nat.lt_of_not_le fun hle => hne first List.mem_cons_self ?_
      have hlead := h.longest [first] (by simp) (by simpa using hle)
      simpa using hlead
    · intro hlt
      obtain ⟨lead, hlead, rfl⟩ := h.whole
      cases lead with
      | nil => rfl
      | cons other lead =>
          obtain ⟨rfl, -⟩ := List.cons_prefix_cons.1 hlead
          have hfits := h.fits
          rw [List.flatten_cons, List.length_append] at hfits
          omega
  rw [hfirst]
  simp

section

variable {segment : List Char → List (List Char)}

theorem normalizeBy_of_le {s : String} (h : (Text.collapse s).length ≤ maxLength) :
    normalizeBy segment s = Text.collapse s :=
  if_pos h

theorem isLongestFit_normalizeBy {s : String} (h : maxLength < (Text.collapse s).length) :
    IsLongestFit maxLength (segment (Text.collapse s).toList) (normalizeBy segment s).toList := by
  unfold normalizeBy
  dsimp only
  rw [if_neg (Nat.not_le.2 h), String.toList_ofList]
  exact isLongestFit_fitting _ _

/-- A way to cut texts into segments: none is empty, and together they are the text. -/
structure Segments (segment : List Char → List (List Char)) : Prop where
  flatten : ∀ cs, (segment cs).flatten = cs
  ne_nil : ∀ cs, ∀ piece ∈ segment cs, piece ≠ []

theorem segments_clusters : Segments Text.Grapheme.clusters where
  flatten := Text.Grapheme.flatten_clusters
  ne_nil _ _ := Text.Grapheme.ne_nil_of_mem_clusters

/-- Whatever the segments are, a header is the line of its words or, if that is too long, the
longest part of it that fits and is made of whole segments. -/
theorem Segments.normalizeBy_longestFit (h : Segments segment) (s : String) :
    let line := " ".intercalate (Text.words s)
    (line.length ≤ 200 → normalizeBy segment s = line) ∧
    (200 < line.length → IsLongestFit 200 (segment line.toList) (normalizeBy segment s).toList ∧
      (normalizeBy segment s = "" ↔
        ∃ first ∈ (segment line.toList).head?, 200 < first.length)) := by
  intro line
  refine ⟨normalizeBy_of_le, fun hlt => ?_⟩
  have hfit : IsLongestFit 200 (segment line.toList) (normalizeBy segment s).toList :=
    isLongestFit_normalizeBy hlt
  have hpieces : segment line.toList ≠ [] := by
    intro hnil
    have hflatten := h.flatten line.toList
    rw [hnil] at hflatten
    rw [← String.length_toList, ← hflatten] at hlt
    exact absurd hlt (by decide)
  refine ⟨hfit, ?_⟩
  rw [← hfit.eq_nil_iff (h.ne_nil _) hpieces, String.toList_eq_nil_iff]

end

theorem normalize_of_le {s : String} (h : (Text.collapse s).length ≤ maxLength) :
    normalize s = Text.collapse s :=
  normalizeBy_of_le h

theorem isLongestFit_normalize {s : String} (h : maxLength < (Text.collapse s).length) :
    IsLongestFit maxLength (Text.Grapheme.clusters (Text.collapse s).toList)
      (normalize s).toList :=
  isLongestFit_normalizeBy h

/-- A header is the line of its words or, if that is too long, the longest part of it that fits and
is made of whole grapheme clusters. -/
theorem normalize_longestFit (s : String) :
    ∃ names : List String, Text.Printed (names.map .word) s.toList ∧
      let line := " ".intercalate names
      let clusters := Text.Grapheme.clusters line.toList
      clusters.flatten = line.toList ∧ (∀ cluster ∈ clusters, cluster ≠ []) ∧
      (line.length ≤ 200 → normalize s = line) ∧
      (200 < line.length → IsLongestFit 200 clusters (normalize s).toList ∧
        (normalize s = "" ↔ ∃ first ∈ clusters.head?, 200 < first.length)) := by
  have hwords : Text.Printed ((Text.words s).map .word) s.toList := by
    have hprinted := Text.printed_words s.toList
    rwa [String.ofList_toList] at hprinted
  exact ⟨Text.words s, hwords, segments_clusters.flatten _, segments_clusters.ne_nil _,
    segments_clusters.normalizeBy_longestFit s⟩

/-! ## A second round -/

/-- A header that is too long is cut directly behind a space. -/
def CutBehindSpace (s : String) : Prop :=
  maxLength < (Text.collapse s).length ∧ (normalize s).toList.getLast? = some ' '

/-- A header fits, so the second round only collapses it. -/
theorem normalize_normalize (s : String) :
    normalize (normalize s) = Text.trimEnd (normalize s) := by
  have hcollapse := (Text.collapse_of_isPrefix (normalize_isPrefix s)).1
  rw [normalize_of_le, hcollapse]
  rw [hcollapse]
  exact Nat.le_trans (Text.length_trimEnd_le _) (length_normalize_le s)

/-- A header is trimmed and stays as it is, or it has one space behind what the second round
leaves. -/
theorem normalize_cases (s : String) :
    (Text.Trimmed (normalize s) ∧ normalize (normalize s) = normalize s) ∨
      (Text.IsName (normalize (normalize s)) ∧ normalize s = normalize (normalize s) ++ " ") := by
  rw [normalize_normalize]
  rcases (Text.collapse_of_isPrefix (normalize_isPrefix s)).2 with htrimmed | ⟨line, hline, heq⟩
  · exact .inl ⟨htrimmed, Text.trimEnd_of_trimmed htrimmed⟩
  · have htrim : Text.trimEnd (normalize s) = line := by
      rw [heq, Text.trimEnd_append_space hline.2]
    rw [htrim]
    exact .inr ⟨hline, heq⟩

theorem trimmed_normalize_normalize (s : String) : Text.Trimmed (normalize (normalize s)) := by
  rcases normalize_cases s with ⟨htrimmed, heq⟩ | ⟨hname, -⟩
  · rwa [heq]
  · exact hname.2

/-- The cut is the only reason for white space at the end of a header. -/
theorem cutBehindSpace_iff {s : String} : CutBehindSpace s ↔ ¬ Text.Trimmed (normalize s) := by
  constructor
  · rintro ⟨-, hspace⟩ htrimmed
    exact absurd (htrimmed.2 ' ' hspace) (by decide)
  · intro hnot
    refine ⟨Nat.lt_of_not_le fun hle => hnot ?_, ?_⟩
    · rw [normalize_of_le hle]
      exact Text.trimmed_collapse s
    · rcases normalize_cases s with ⟨htrimmed, -⟩ | ⟨-, heq⟩
      · exact absurd htrimmed hnot
      · rw [heq, Text.getLast?_append_space]

/-- A header neither begins nor ends with white space, and normalising it again changes nothing,
unless it was cut directly behind a space. Then it has this one space at its end, behind a text that
a second round brings out and that has all these properties. -/
theorem normalize_settles (s : String) :
    (¬ CutBehindSpace s →
      normalize (normalize s) = normalize s ∧ Text.Trimmed (normalize s)) ∧
    (CutBehindSpace s →
      normalize s = normalize (normalize s) ++ " " ∧ normalize (normalize s) ≠ "") ∧
    normalize (normalize (normalize s)) = normalize (normalize s) ∧
    Text.Trimmed (normalize (normalize s)) := by
  refine ⟨?_, ?_, ?_, trimmed_normalize_normalize s⟩
  · intro hwhole
    have htrimmed : Text.Trimmed (normalize s) := not_not.1 (mt cutBehindSpace_iff.2 hwhole)
    rw [normalize_normalize, Text.trimEnd_of_trimmed htrimmed]
    exact ⟨rfl, htrimmed⟩
  · intro hcut
    rcases normalize_cases s with ⟨htrimmed, -⟩ | ⟨hname, heq⟩
    · exact absurd htrimmed (cutBehindSpace_iff.1 hcut)
    · exact ⟨heq, hname.1⟩
  · rw [normalize_normalize (normalize s),
      Text.trimEnd_of_trimmed (trimmed_normalize_normalize s)]

/-- A letter begins a cluster behind a space. -/
private theorem continues_letter (cluster : List Char) :
    Text.Grapheme.continues (' ' :: cluster) 'b' = false := by
  have hextend : Text.Grapheme.isExtend 'b' = false := by decide +kernel
  have hmark : Text.Grapheme.isSpacingMark 'b' = false := by decide +kernel
  have hprepended : Text.Grapheme.isPrepended ' ' = false := by decide +kernel
  have hconsonant : Text.Grapheme.isConsonant 'b' = false := by decide +kernel
  have hpictograph : Text.Grapheme.isPictographic 'b' = false := by decide +kernel
  have hflag : Text.Grapheme.isRegionalIndicator 'b' = false := by decide +kernel
  have hhangul : Text.Grapheme.joinsHangul ' ' 'b' = false := by decide +kernel
  have hjoiner : Text.Grapheme.isZeroWidthJoiner 'b' = false := by decide +kernel
  simp [Text.Grapheme.continues, Text.Grapheme.continuesConjunct,
    Text.Grapheme.continuesPictograph, Text.Grapheme.continuesFlag, *]

/-- A word of one character less than fits is cut from the next word behind the space. -/
private theorem toList_normalize_word {word : List Char}
    (hword : ∀ c ∈ word, Text.isBlank c = false) (hlength : word.length = 199) :
    (normalize (.ofList (word ++ [' ', 'b']))).toList = word ++ [' '] := by
  have hne : word ≠ [] := List.ne_nil_of_length_pos (by omega)
  have hline : (Text.collapse (.ofList (word ++ [' ', 'b']))).toList = word ++ [' ', 'b'] := by
    rw [Text.collapse, Text.words_append (by decide), Text.words_of_forall hne hword]
    exact (Text.toList_spaced _ _ _).trans (by rw [String.toList_ofList]; rfl)
  have hlong : maxLength < (Text.collapse (.ofList (word ++ [' ', 'b']))).length := by
    rw [← String.length_toList, hline, List.length_append, hlength]
    decide
  have hfit := isLongestFit_normalize hlong
  rw [hline] at hfit
  obtain ⟨lead, hlead, hflatten⟩ :=
    Text.Grapheme.exists_lead_of_break continues_letter word []
  have hfits : (word ++ [' ']).length = maxLength := by
    rw [List.length_append, hlength]
    rfl
  have hkept := hfit.longest lead hlead (by rw [hflatten, hfits])
  rw [hflatten] at hkept
  exact (hkept.eq_of_length_le (by rw [hfits]; exact hfit.fits)).symm

/-- A header whose limit falls directly behind the space between its words. -/
private def longHeader : String :=
  .ofList (List.replicate 199 'a' ++ [' ', 'b'])

/-- The space behind the first word is kept, so the header ends in white space, and normalising it
again takes the space away. -/
theorem normalize_keeps_space :
    (normalize longHeader).toList = List.replicate 199 'a' ++ [' '] ∧
      ¬ Text.Trimmed (normalize longHeader) ∧
      normalize (normalize longHeader) ≠ normalize longHeader := by
  have hword : ∀ c ∈ List.replicate 199 'a', Text.isBlank c = false := by
    intro c hc
    rw [List.eq_of_mem_replicate hc]
    decide
  have hkept : (normalize longHeader).toList = List.replicate 199 'a' ++ [' '] :=
    toList_normalize_word hword List.length_replicate
  have htrimmed : ¬ Text.Trimmed (normalize longHeader) := by
    intro htrimmed
    have hlast : (normalize longHeader).toList.getLast? = some ' ' := by
      rw [hkept, List.getLast?_concat]
    exact absurd (htrimmed.2 ' ' hlast) (by decide)
  refine ⟨hkept, htrimmed, fun hsame => htrimmed ?_⟩
  rw [← hsame]
  exact trimmed_normalize_normalize longHeader

end Signature

end SourceChunks
