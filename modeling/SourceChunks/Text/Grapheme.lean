-- SUMMARY: Extended grapheme clusters: the pieces of a text that a reader takes for one character.
import SourceChunks.Text.Grapheme.Classes

/-!
# Grapheme clusters

Cutting a text into extended grapheme clusters. Each rule looks at the next character and at the
cluster in front of it only: no rule reaches further back than the start of that cluster. Main
statement: the clusters of a text, one after the other, are the text.
-/

namespace SourceChunks.Text.Grapheme

/-! ## Classes -/

def isZeroWidthJoiner (c : Char) : Bool := c.toNat == 0x200D

def isLineEnd (c : Char) : Bool := c == '\r' || c == '\n'

def isControl (c : Char) : Bool := isLineEnd c || inRanges controlRanges c

def isExtend (c : Char) : Bool := inRanges extendRanges c

def isPrepended (c : Char) : Bool := inRanges prependedRanges c

def isSpacingMark (c : Char) : Bool := inRanges spacingMarkRanges c

def isPictographic (c : Char) : Bool := inRanges pictographicRanges c

/-- The letters of which two stand for one flag. -/
def isRegionalIndicator (c : Char) : Bool := 0x1F1E6 ≤ c.toNat && c.toNat ≤ 0x1F1FF

def isConsonant (c : Char) : Bool := inRanges conjunctConsonantRanges c

def isLinker (c : Char) : Bool := inRanges conjunctLinkerRanges c

/-- Marks that may stand between the consonants of a conjunct without parting them. -/
def isConjunctMark (c : Char) : Bool :=
  isZeroWidthJoiner c || (isExtend c && !isLinker c && c.toNat != 0x200C)

def isHangulL (c : Char) : Bool := inRanges hangulLRanges c

def isHangulV (c : Char) : Bool := inRanges hangulVRanges c

def isHangulT (c : Char) : Bool := inRanges hangulTRanges c

def isHangulSyllable (c : Char) : Bool := 0xAC00 ≤ c.toNat && c.toNat ≤ 0xD7A3

/-- Precomposed Hangul syllables without a trailing consonant. -/
def isHangulLV (c : Char) : Bool := isHangulSyllable c && (c.toNat - 0xAC00) % 28 == 0

/-- Precomposed Hangul syllables with a trailing consonant. -/
def isHangulLVT (c : Char) : Bool := isHangulSyllable c && (c.toNat - 0xAC00) % 28 != 0

/-! ## Rules -/

/-- Two characters of one Hangul syllable. -/
def joinsHangul (left c : Char) : Bool :=
  (isHangulL left && (isHangulL c || isHangulV c || isHangulSyllable c))
    || ((isHangulLV left || isHangulV left) && (isHangulV c || isHangulT c))
    || ((isHangulLVT left || isHangulT left) && isHangulT c)

/-- A consonant that continues a conjunct: the cluster ends in a consonant followed by marks of
which one at least is a linker. The cluster is given from its end. -/
def continuesConjunct (cluster : List Char) (c : Char) : Bool :=
  let isMark := fun m => isLinker m || isConjunctMark m
  isConsonant c && (cluster.takeWhile isMark).any isLinker
    && (cluster.dropWhile isMark).head?.any isConsonant

/-- A pictograph that a joiner ties to the one before it. The cluster is given from its end. -/
def continuesPictograph (cluster : List Char) (c : Char) : Bool :=
  match cluster with
  | joiner :: rest =>
    isPictographic c && isZeroWidthJoiner joiner
      && (rest.dropWhile isExtend).head?.any isPictographic
  | [] => false

/-- The second letter of a flag. The cluster is given from its end. -/
def continuesFlag (cluster : List Char) (c : Char) : Bool :=
  isRegionalIndicator c && (cluster.takeWhile isRegionalIndicator).length % 2 == 1

/-- Whether `c` belongs to the cluster in front of it, which is given from its end. -/
def continues (cluster : List Char) (c : Char) : Bool :=
  match cluster with
  | [] => false
  | left :: _ =>
    if left == '\r' && c == '\n' then true
    else if isControl left || isControl c then false
    else joinsHangul left c
      || isExtend c || isZeroWidthJoiner c || isSpacingMark c || isPrepended left
      || continuesConjunct cluster c || continuesPictograph cluster c || continuesFlag cluster c

/-- The clusters of a text of which the start of the first one, given from its end, has been read. -/
def clustersAfter (cluster : List Char) : List Char → List (List Char)
  | [] => [cluster.reverse]
  | c :: cs =>
    if continues cluster c then clustersAfter (c :: cluster) cs
    else cluster.reverse :: clustersAfter [c] cs

/-- The extended grapheme clusters of a text. -/
def clusters : List Char → List (List Char)
  | [] => []
  | c :: cs => clustersAfter [c] cs

/-! ## Nothing is lost -/

theorem flatten_clustersAfter (cluster cs : List Char) :
    (clustersAfter cluster cs).flatten = cluster.reverse ++ cs := by
  induction cs generalizing cluster with
  | nil => simp [clustersAfter]
  | cons c cs ih =>
    unfold clustersAfter
    split <;> simp [ih]

@[simp] theorem flatten_clusters (cs : List Char) : (clusters cs).flatten = cs := by
  cases cs with
  | nil => rfl
  | cons c cs => simp [clusters, flatten_clustersAfter]

theorem ne_nil_of_mem_clustersAfter {cluster cs piece : List Char} (hne : cluster ≠ [])
    (h : piece ∈ clustersAfter cluster cs) : piece ≠ [] := by
  induction cs generalizing cluster with
  | nil => simp_all [clustersAfter]
  | cons c cs ih =>
    unfold clustersAfter at h
    split at h
    · exact ih (by simp) h
    · rcases List.mem_cons.1 h with rfl | h
      · simpa using hne
      · exact ih (by simp) h

theorem ne_nil_of_mem_clusters {cs piece : List Char} (h : piece ∈ clusters cs) : piece ≠ [] := by
  cases cs with
  | nil => simp [clusters] at h
  | cons c cs => exact ne_nil_of_mem_clustersAfter (by simp) h

end SourceChunks.Text.Grapheme
