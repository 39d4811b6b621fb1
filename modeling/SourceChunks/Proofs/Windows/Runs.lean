-- SUMMARY: Runs of uncovered lines: one for each longest gap that holds text, without the blank lines at its ends.
import Mathlib.Data.Nat.Init
import Mathlib.Logic.ExistsUnique
import SourceChunks.Proofs.Windows

/-!
# Runs and gaps

A gap is a longest interval of lines that nothing covers. Runs are read off the lines one by one,
without looking for gaps; still there is exactly one run for each gap that holds text, and it
reaches from the first line of text in the gap to the last. What is needed of the reading is little:
runs hold uncovered lines only, begin and end with text, leave no uncovered text out, and have a
covered line between any two of them.
-/

namespace SourceChunks.LineRange

/-! ## Gaps -/

/-- A line of the file, counted from one, without a flag that says it is covered. -/
def IsFree (texts : List String) (covered : List Bool) (line : Nat) : Prop :=
  1 ≤ line ∧ line ≤ texts.length ∧ covered.getD (line - 1) false = false

instance (texts : List String) (covered : List Bool) (line : Nat) :
    Decidable (IsFree texts covered line) :=
  inferInstanceAs (Decidable (_ ∧ _ ∧ _))

/-- A line of the file, counted from one, that is not blank. -/
def IsFilled (texts : List String) (line : Nat) : Prop :=
  ∃ i text, line = i + 1 ∧ texts[i]? = some text ∧ Text.isBlankText text = false

/-- A longest interval of free lines. -/
structure IsGap (texts : List String) (covered : List Bool) (gap : LineRange) : Prop where
  nonempty : gap.first ≤ gap.last
  free : ∀ line, gap.contains line = true → IsFree texts covered line
  before : ¬ IsFree texts covered (gap.first - 1)
  behind : ¬ IsFree texts covered (gap.last + 1)

/-- A run reaches from the first line with text in an interval to the last. -/
structure SpansText (texts : List String) (gap run : LineRange) : Prop where
  first_mem : gap.contains run.first = true
  first_filled : IsFilled texts run.first
  last_mem : gap.contains run.last = true
  last_filled : IsFilled texts run.last
  contains_filled : ∀ line, gap.contains line = true → IsFilled texts line →
    run.contains line = true

variable {texts : List String} {covered : List Bool}

/-- The free lines in front of a free line, as far as there is no other line between them. -/
theorem exists_first_free {line : Nat} (h : IsFree texts covered line) :
    ∃ first ≤ line, (∀ l, first ≤ l → l ≤ line → IsFree texts covered l) ∧
      ¬ IsFree texts covered (first - 1) := by
  induction line with
  | zero => exact absurd h.1 (by decide)
  | succ line ih =>
      by_cases hbefore : IsFree texts covered line
      · obtain ⟨first, hle, hfree, hend⟩ := ih hbefore
        refine ⟨first, by omega, ?_, hend⟩
        intro l h₁ h₂
        rcases Nat.lt_succ_iff_lt_or_eq.1 (Nat.lt_succ_of_le h₂) with hl | rfl
        · exact hfree l h₁ (by omega)
        · exact h
      · refine ⟨line + 1, Nat.le_refl _, ?_, hbefore⟩
        intro l h₁ h₂
        rwa [Nat.le_antisymm h₂ h₁]

/-- The free lines behind a free line, as far as there is no other line between them. -/
theorem exists_last_free {line : Nat} (h : IsFree texts covered line) :
    ∃ last ≥ line, (∀ l, line ≤ l → l ≤ last → IsFree texts covered l) ∧
      ¬ IsFree texts covered (last + 1) := by
  induction hrest : texts.length - line generalizing line with
  | zero =>
      have hlast : line = texts.length := Nat.le_antisymm h.2.1 (by omega)
      refine ⟨line, Nat.le_refl _, ?_, ?_⟩
      · intro l h₁ h₂
        rwa [Nat.le_antisymm h₂ h₁]
      · intro hbeyond
        exact absurd hbeyond.2.1 (by omega)
  | succ rest ih =>
      by_cases hbehind : IsFree texts covered (line + 1)
      · obtain ⟨last, hle, hfree, hend⟩ := ih hbehind (by omega)
        refine ⟨last, by omega, ?_, hend⟩
        intro l h₁ h₂
        rcases Nat.eq_or_lt_of_le h₁ with rfl | hl
        · exact h
        · exact hfree l hl h₂
      · refine ⟨line, Nat.le_refl _, ?_, hbehind⟩
        intro l h₁ h₂
        rwa [Nat.le_antisymm h₂ h₁]

/-- A free line is in a gap. -/
theorem exists_gap_of_isFree {line : Nat} (h : IsFree texts covered line) :
    ∃ gap, IsGap texts covered gap ∧ gap.contains line = true := by
  obtain ⟨first, hfirst, hbefore, hstart⟩ := exists_first_free h
  obtain ⟨last, hlast, hbehind, hend⟩ := exists_last_free h
  refine ⟨⟨first, last⟩, ⟨Nat.le_trans hfirst hlast, ?_, hstart, hend⟩,
    contains_iff.2 ⟨hfirst, hlast⟩⟩
  intro l hl
  obtain ⟨h₁, h₂⟩ := contains_iff.1 hl
  rcases Nat.le_total l line with hle | hle
  · exact hbefore l h₁ hle
  · exact hbehind l hle h₂

/-- A gap reaches as far as any interval of free lines that shares a line with it. -/
theorem IsGap.reaches {a b : LineRange} {line : Nat} (ha : IsGap texts covered a)
    (hb : ∀ l, b.contains l = true → IsFree texts covered l) (hla : a.contains line = true)
    (hlb : b.contains line = true) : a.first ≤ b.first ∧ b.last ≤ a.last := by
  obtain ⟨h₁, h₂⟩ := contains_iff.1 hla
  obtain ⟨h₃, h₄⟩ := contains_iff.1 hlb
  constructor
  · apply Nat.le_of_not_lt
    intro hlt
    exact ha.before (hb _ (contains_iff.2 ⟨by omega, by omega⟩))
  · apply Nat.le_of_not_lt
    intro hlt
    exact ha.behind (hb _ (contains_iff.2 ⟨by omega, by omega⟩))

/-- No two gaps share a line. -/
theorem IsGap.eq_of_contains {a b : LineRange} {line : Nat} (ha : IsGap texts covered a)
    (hb : IsGap texts covered b) (hla : a.contains line = true) (hlb : b.contains line = true) :
    a = b := by
  obtain ⟨hfirst, hlast⟩ := ha.reaches hb.free hla hlb
  obtain ⟨hfirst', hlast'⟩ := hb.reaches ha.free hlb hla
  cases a
  cases b
  congr
  · exact Nat.le_antisymm hfirst hfirst'
  · exact Nat.le_antisymm hlast' hlast

/-- An interval that holds text has one range that spans it. -/
theorem SpansText.unique {gap a b : LineRange} (ha : SpansText texts gap a)
    (hb : SpansText texts gap b) : a = b := by
  have h₁ := contains_iff.1 (ha.contains_filled _ hb.first_mem hb.first_filled)
  have h₂ := contains_iff.1 (ha.contains_filled _ hb.last_mem hb.last_filled)
  have h₃ := contains_iff.1 (hb.contains_filled _ ha.first_mem ha.first_filled)
  have h₄ := contains_iff.1 (hb.contains_filled _ ha.last_mem ha.last_filled)
  cases a
  cases b
  congr
  · exact Nat.le_antisymm h₁.1 h₃.1
  · exact Nat.le_antisymm h₄.2 h₂.2

theorem SpansText.contains {gap run : LineRange} {line : Nat} (h : SpansText texts gap run)
    (hline : run.contains line = true) : gap.contains line = true := by
  have hfirst := contains_iff.1 h.first_mem
  have hlast := contains_iff.1 h.last_mem
  obtain ⟨h₁, h₂⟩ := contains_iff.1 hline
  exact contains_iff.2 ⟨by omega, by omega⟩

/-! ## Runs in gaps -/

/-- A line with text is in a run if and only if nothing covers it. -/
theorem exists_mem_uncovered_iff {line : Nat} (h : IsFilled texts line) :
    (∃ run ∈ uncovered texts covered, run.contains line = true) ↔
      covered.getD (line - 1) false = false := by
  constructor
  · rintro ⟨run, hrun, hline⟩
    exact (free_of_mem_uncovered hrun hline).2.2
  · intro hflag
    obtain ⟨i, text, rfl, htext, hblank⟩ := h
    exact exists_mem_uncovered_contains htext hblank hflag

/-- Only one run has lines in a gap, since none of these is covered. -/
theorem IsGap.eq_of_mem_uncovered {gap a b : LineRange} {l m : Nat} (hgap : IsGap texts covered gap)
    (ha : a ∈ uncovered texts covered) (hb : b ∈ uncovered texts covered)
    (hla : a.contains l = true) (hl : gap.contains l = true) (hmb : b.contains m = true)
    (hm : gap.contains m = true) : a = b := by
  obtain ⟨h₁, h₂⟩ := contains_iff.1 hla
  obtain ⟨h₃, h₄⟩ := contains_iff.1 hl
  obtain ⟨h₅, h₆⟩ := contains_iff.1 hmb
  obtain ⟨h₇, h₈⟩ := contains_iff.1 hm
  apply Decidable.byContradiction
  intro hne
  obtain ⟨line, hbetween, hcovered⟩ := exists_covered_of_ne ha hb hne
  have hfree : IsFree texts covered line :=
    hgap.free line (contains_iff.2 ⟨by omega, by omega⟩)
  rw [hfree.2.2] at hcovered
  cases hcovered

/-- A run spans the text of a gap. -/
theorem exists_gap_of_mem_uncovered {run : LineRange} (h : run ∈ uncovered texts covered) :
    ∃ gap, IsGap texts covered gap ∧ SpansText texts gap run := by
  have hle := first_le_last_of_mem_uncovered h
  have hfirst : run.contains run.first = true := contains_iff.2 ⟨Nat.le_refl _, hle⟩
  have hlast : run.contains run.last = true := contains_iff.2 ⟨hle, Nat.le_refl _⟩
  obtain ⟨hstart, hend⟩ := ends_of_mem_uncovered h
  obtain ⟨gap, hgap, hmem⟩ := exists_gap_of_isFree (free_of_mem_uncovered h hfirst)
  -- the lines between the ends of the run are free, so they are in the same gap
  obtain ⟨hreach, hreach'⟩ := hgap.reaches (fun _ => free_of_mem_uncovered h) hmem hfirst
  refine ⟨gap, hgap, hmem, hstart, contains_iff.2 ⟨by omega, hreach'⟩, hend, ?_⟩
  intro line hline hfilled
  obtain ⟨other, hother, hcontains⟩ :=
    (exists_mem_uncovered_iff hfilled).2 (hgap.free line hline).2.2
  rwa [hgap.eq_of_mem_uncovered h hother hfirst hmem hcontains hline]

/-- The runs of a file are in the order of their lines, with covered lines between them. There is
exactly one for each gap that holds text, from the first line of text in the gap to the last, and no
other; so a line with text is in a run if and only if nothing covers it. -/
theorem uncovered_spans_gaps (texts : List String) (covered : List Bool) :
    ((uncovered texts covered).Pairwise fun a b =>
      a.last < b.first ∧
      ∃ line, a.last < line ∧ line < b.first ∧ covered.getD (line - 1) false = true) ∧
    (∀ gap, IsGap texts covered gap →
      (∃ line, gap.contains line = true ∧ IsFilled texts line) →
      ∃! run, run ∈ uncovered texts covered ∧ SpansText texts gap run) ∧
    (∀ run ∈ uncovered texts covered,
      run.first ≤ run.last ∧ ∃! gap, IsGap texts covered gap ∧ SpansText texts gap run) ∧
    ∀ line, IsFilled texts line →
      ((∃ run ∈ uncovered texts covered, run.contains line = true) ↔
        covered.getD (line - 1) false = false) := by
  refine ⟨?_, ?_, ?_, fun line => exists_mem_uncovered_iff⟩
  · refine (separated_uncovered texts covered).imp ?_
    rintro a b ⟨line, h₁, h₂, hcovered⟩
    exact ⟨Nat.lt_trans h₁ h₂, line, h₁, h₂, hcovered⟩
  · rintro gap hgap ⟨line, hline, hfilled⟩
    obtain ⟨run, hrun, hcontains⟩ :=
      (exists_mem_uncovered_iff hfilled).2 (hgap.free line hline).2.2
    obtain ⟨other, hother, hspans⟩ := exists_gap_of_mem_uncovered hrun
    have hsame : other = gap := hother.eq_of_contains hgap (hspans.contains hcontains) hline
    refine ⟨run, ⟨hrun, hsame ▸ hspans⟩, ?_⟩
    rintro found ⟨-, hfound⟩
    exact hfound.unique (hsame ▸ hspans)
  · intro run hrun
    obtain ⟨gap, hgap, hspans⟩ := exists_gap_of_mem_uncovered hrun
    refine ⟨first_le_last_of_mem_uncovered hrun, gap, ⟨hgap, hspans⟩, ?_⟩
    rintro other ⟨hother, hspans'⟩
    exact hother.eq_of_contains hgap hspans'.first_mem hspans.first_mem

/-- A function between an import and a remark, with flags that end with the function. -/
private def remarked : List String :=
  ["", "use a;", "", "fn f() \x7b\x7d", "", "  ", "// tail", ""]

private def remarkedFlags : List Bool :=
  [false, false, false, true]

/-- The lines without flags behind the function are one gap, and the remark is its run. -/
theorem uncovered_spans_gaps_shortFlags :
    uncovered remarked remarkedFlags = [⟨2, 2⟩, ⟨7, 7⟩] ∧
    IsGap remarked remarkedFlags ⟨5, 8⟩ ∧
    (∃! run, run ∈ uncovered remarked remarkedFlags ∧ SpansText remarked ⟨5, 8⟩ run) ∧
    (∃! gap, IsGap remarked remarkedFlags gap ∧ SpansText remarked gap ⟨2, 2⟩) ∧
    ∃ run ∈ uncovered remarked remarkedFlags, run.contains 7 = true := by
  have hruns : uncovered remarked remarkedFlags = [⟨2, 2⟩, ⟨7, 7⟩] := by decide
  have hfree : ∀ line, 5 ≤ line → line ≤ 8 → IsFree remarked remarkedFlags line := by decide
  have hgap : IsGap remarked remarkedFlags ⟨5, 8⟩ :=
    ⟨by decide, fun line hline => hfree line (contains_iff.1 hline).1 (contains_iff.1 hline).2,
      by decide, by decide⟩
  have hremark : IsFilled remarked 7 := ⟨6, "// tail", rfl, rfl, by decide⟩
  obtain ⟨-, hrun, hspans, htext⟩ := uncovered_spans_gaps remarked remarkedFlags
  have himport := hspans ⟨2, 2⟩ (hruns ▸ List.mem_cons_self)
  exact ⟨hruns, hgap, hrun _ hgap ⟨7, by decide, hremark⟩, himport.2,
    (htext 7 hremark).2 (by decide)⟩

end SourceChunks.LineRange
