-- SUMMARY: The shape of windows: their sizes, overlaps and number, and that counting them stays within 64 bits.
import Mathlib.Algebra.Order.Floor.Div
import Mathlib.Data.List.Chain
import Mathlib.Order.Interval.Finset.Nat
import SourceChunks.Proofs.Windows

/-!
# The shape of windows

Which windows a block is cut into, for all options, also those that validation refuses. One window
follows another at a fixed distance, and only the last one is cut short; sizes, overlaps and the
number of windows are read off this. The same windows come out of arithmetic that fails outside the
range of counts: cutting a block never leaves that range.
-/

namespace SourceChunks

/-! ## Arithmetic of counts -/

/-- The sum of two counts, if it is a count. -/
def Count.add? (a b : Nat) : Option Nat :=
  if a + b ≤ maxCount then some (a + b) else none

/-- The difference of two counts, if it is a count. -/
def Count.sub? (a b : Nat) : Option Nat :=
  if b ≤ a then some (a - b) else none

theorem Count.add?_eq_some_iff {a b c : Nat} :
    Count.add? a b = some c ↔ a + b ≤ maxCount ∧ c = a + b := by
  simp [Count.add?, eq_comm]

theorem Count.sub?_eq_some_iff {a b c : Nat} : Count.sub? a b = some c ↔ b ≤ a ∧ c = a - b := by
  simp [Count.sub?, eq_comm]

namespace LineRange

/-- The lines of a range. -/
def lines (range : LineRange) : Finset Nat :=
  Finset.Icc range.first range.last

theorem mem_lines {range : LineRange} {line : Nat} :
    line ∈ range.lines ↔ range.first ≤ line ∧ line ≤ range.last :=
  Finset.mem_Icc

theorem card_lines (range : LineRange) : range.lines.card = range.last + 1 - range.first :=
  Nat.card_Icc _ _

/-! ## One window after another -/

/-- How the next window follows one that does not reach `last`: that one is full, and the next
begins `step` lines later and is full unless `last` comes first. -/
structure Follows (size step last : Nat) (window next : LineRange) : Prop where
  full : window.last + 1 = window.first + size
  short : window.last < last
  first_eq : next.first = window.first + step
  last_eq : next.last = min (next.first + size - 1) last

namespace Follows

variable {size step last : Nat} {window next : LineRange}

/-- What two neighbours share is what a step leaves over of a window. -/
theorem card_inter (h : Follows size step last window next) :
    (window.lines ∩ next.lines).card = size - step := by
  obtain ⟨hfull, hshort, hfirst, hlast⟩ := h
  have hinter : window.lines ∩ next.lines = Finset.Icc next.first window.last := by
    ext line
    simp only [lines, Finset.mem_inter, Finset.mem_Icc]
    omega
  rw [hinter, Nat.card_Icc]
  omega

theorem last_lt (hstep : 0 < step) (h : Follows size step last window next) :
    window.last < next.last := by
  obtain ⟨hfull, hshort, hfirst, hlast⟩ := h
  omega

end Follows

section WindowsFrom

variable {size step last first : Nat} {hstep : 0 < step}

theorem windowsFrom_eq_cons : ∃ rest, windowsFrom size step last hstep first =
    ⟨first, min (first + size - 1) last⟩ :: rest := by
  unfold windowsFrom
  split
  · next hend => exact ⟨[], by rw [Nat.min_eq_right hend]⟩
  · next hend => exact ⟨_, by rw [Nat.min_eq_left (Nat.le_of_not_le hend)]⟩

/-- Each window follows the one before it. -/
theorem isChain_windowsFrom (hsize : 0 < size) :
    (windowsFrom size step last hstep first).IsChain (Follows size step last) := by
  fun_induction windowsFrom size step last hstep first with
  | case1 first hend => exact List.isChain_singleton _
  | case2 first hend ih =>
      obtain ⟨rest, hrest⟩ :=
        @windowsFrom_eq_cons size step last (first + step) hstep
      rw [hrest] at ih ⊢
      refine List.isChain_cons_cons.2 ⟨?_, ih⟩
      exact { full := by dsimp only; omega, short := by dsimp only; omega,
              first_eq := rfl, last_eq := rfl }

theorem card_lines_of_mem_dropLast_windowsFrom {window : LineRange} (hsize : 0 < size)
    (h : window ∈ (windowsFrom size step last hstep first).dropLast) :
    window.lines.card = size := by
  fun_induction windowsFrom size step last hstep first with
  | case1 first hend => simp at h
  | case2 first hend ih =>
      rw [List.dropLast_cons_of_ne_nil windowsFrom_ne_nil] at h
      rcases List.mem_cons.1 h with rfl | h
      · rw [card_lines]
        dsimp only
        omega
      · exact ih h

theorem card_lines_le_of_mem_windowsFrom {window : LineRange} (hsize : 0 < size)
    (h : window ∈ windowsFrom size step last hstep first) : window.lines.card ≤ size := by
  fun_induction windowsFrom size step last hstep first with
  | case1 first hend =>
      obtain rfl := List.mem_singleton.1 h
      rw [card_lines]
      dsimp only
      omega
  | case2 first hend ih =>
      rcases List.mem_cons.1 h with rfl | h
      · rw [card_lines]
        dsimp only
        omega
      · exact ih h

/-- Windows end one behind the other, so the last line of a window is in none before it. -/
theorem exists_new_line_of_windowsFrom (hsize : step ≤ size) (hle : first ≤ last)
    {earlier later : List LineRange} {window : LineRange}
    (h : windowsFrom size step last hstep first = earlier ++ window :: later) :
    ∃ line ∈ window.lines, ∀ before ∈ earlier, line ∉ before.lines := by
  have hmem : window ∈ windowsFrom size step last hstep first := by simp [h]
  have hbounds := bounds_of_mem_windowsFrom hsize hle hmem
  have : Trans (fun a b : LineRange => a.last < b.last) (fun a b : LineRange => a.last < b.last)
      (fun a b : LineRange => a.last < b.last) := ⟨Nat.lt_trans⟩
  have hends : (windowsFrom size step last hstep first).Pairwise fun a b => a.last < b.last :=
    List.isChain_iff_pairwise.1
      ((isChain_windowsFrom (Nat.lt_of_lt_of_le hstep hsize)).imp fun _ _ => Follows.last_lt hstep)
  rw [h, List.pairwise_append] at hends
  refine ⟨window.last, mem_lines.2 ⟨hbounds.2.1, Nat.le_refl _⟩, ?_⟩
  intro before hbefore hline
  have hlt := hends.2.2 before hbefore window List.mem_cons_self
  exact absurd (mem_lines.1 hline).2 (Nat.not_le_of_lt hlt)

/-- Taking one divisor off takes one off the quotient. -/
private theorem ceilDiv_eq_succ {a b : Nat} (ha : 0 < a) (hb : 0 < b) :
    a ⌈/⌉ b = (a - b) ⌈/⌉ b + 1 := by
  simp only [Nat.ceilDiv_eq_add_pred_div]
  rcases Nat.le_total b a with h | h
  · rw [show a + b - 1 = a - b + b - 1 + b by omega, Nat.add_div_right _ hb]
  · rw [Nat.sub_eq_zero_of_le h, Nat.zero_add, Nat.div_eq_of_lt (Nat.sub_lt hb Nat.one_pos),
      show a + b - 1 = a - 1 + b by omega, Nat.add_div_right _ hb,
      Nat.div_eq_of_lt (show a - 1 < b by omega)]

/-- One window, and one more for each step that is begun in the lines behind it. -/
theorem length_windowsFrom (hsize : 0 < size) :
    (windowsFrom size step last hstep first).length = 1 + (last + 1 - first - size) ⌈/⌉ step := by
  fun_induction windowsFrom size step last hstep first with
  | case1 first hend =>
      rw [show last + 1 - first - size = 0 by omega, zero_ceilDiv]
      rfl
  | case2 first hend ih =>
      rw [List.length_cons, ih, ceilDiv_eq_succ (a := last + 1 - first - size) (by omega) hstep,
        show last + 1 - (first + step) - size = last + 1 - first - size - step by omega]
      omega

end WindowsFrom

/-! ## Windows within the range of counts -/

/-- What the loop of `windowsFrom` computes in the arithmetic of counts, from a window that begins
on line `first`. It computes nothing if a sum or a difference is no count, nor if it never comes to
its end. -/
inductive ComputesFrom (size step last : Nat) : Nat → List LineRange → Prop where
  | done {first sum reach : Nat} (hsum : Count.add? first size = some sum)
      (hreach : Count.sub? sum 1 = some reach) (hlast : min reach last = last) :
      ComputesFrom size step last first [⟨first, min reach last⟩]
  | more {first sum reach next : Nat} {rest : List LineRange}
      (hsum : Count.add? first size = some sum) (hreach : Count.sub? sum 1 = some reach)
      (hlast : min reach last ≠ last) (hnext : Count.add? first step = some next)
      (hrest : ComputesFrom size step last next rest) :
      ComputesFrom size step last first (⟨first, min reach last⟩ :: rest)

/-- What `windows` computes in the arithmetic of counts; the threshold and the step come from
operations that stop at the ends of the range. -/
inductive Computes (o : Options) (block : LineRange) : List LineRange → Prop where
  | whole {distance count : Nat}
      (hdistance : Count.sub? (max block.last block.first) block.first = some distance)
      (hcount : Count.add? distance 1 = some count)
      (hfew : count ≤ o.splitThreshold ∨ o.chunkSize = 0) :
      Computes o block [⟨block.first, max block.last block.first⟩]
  | split {distance count : Nat} {windows : List LineRange}
      (hdistance : Count.sub? (max block.last block.first) block.first = some distance)
      (hcount : Count.add? distance 1 = some count)
      (hmany : ¬(count ≤ o.splitThreshold ∨ o.chunkSize = 0))
      (hloop : ComputesFrom o.chunkSize o.windowStep (max block.last block.first) block.first
        windows) :
      Computes o block windows

/-- The loop computes nothing else than the windows. -/
theorem eq_windowsFrom_of_computesFrom {size step last first : Nat} {result : List LineRange}
    (hstep : 0 < step) (h : ComputesFrom size step last first result) :
    result = windowsFrom size step last hstep first := by
  induction h with
  | done hsum hreach hlast =>
      obtain ⟨-, rfl⟩ := Count.add?_eq_some_iff.1 hsum
      obtain ⟨-, rfl⟩ := Count.sub?_eq_some_iff.1 hreach
      rw [windowsFrom, if_pos (by omega), hlast]
  | more hsum hreach hlast hnext hrest ih =>
      obtain ⟨-, rfl⟩ := Count.add?_eq_some_iff.1 hsum
      obtain ⟨-, rfl⟩ := Count.sub?_eq_some_iff.1 hreach
      obtain ⟨-, rfl⟩ := Count.add?_eq_some_iff.1 hnext
      rw [windowsFrom, if_neg (by omega), Nat.min_eq_left (by omega), ih]

/-- The loop comes to its end, within the range, if a window may begin on the last line. -/
theorem computesFrom_windowsFrom {size step last first : Nat} {hstep : 0 < step}
    (hsize : step ≤ size) (hle : first ≤ last) (hfits : last + size ≤ maxCount) :
    ComputesFrom size step last first (windowsFrom size step last hstep first) := by
  fun_induction windowsFrom size step last hstep first with
  | case1 first hend =>
      have hdone : ComputesFrom size step last first [⟨first, min (first + size - 1) last⟩] :=
        .done (Count.add?_eq_some_iff.2 ⟨by omega, rfl⟩) (Count.sub?_eq_some_iff.2 ⟨by omega, rfl⟩)
          (Nat.min_eq_right hend)
      rwa [Nat.min_eq_right hend] at hdone
  | case2 first hend ih =>
      have hshort : min (first + size - 1) last = first + size - 1 :=
        Nat.min_eq_left (Nat.le_of_not_le hend)
      have hmore := ComputesFrom.more (Count.add?_eq_some_iff.2 ⟨by omega, rfl⟩)
        (Count.sub?_eq_some_iff.2 ⟨by omega, rfl⟩) (by omega)
        (Count.add?_eq_some_iff.2 ⟨by omega, rfl⟩) (ih (by omega))
      rwa [hshort] at hmore

/-- Blocks in the lower half of the range are cut within the range, whatever the options: one that
is split has windows of less than a third of its lines. -/
theorem computes_iff (o : Options) {block : LineRange} (hle : block.first ≤ block.last)
    (hlast : block.last < 2 ^ 63) {result : List LineRange} :
    Computes o block result ↔ result = windows o block := by
  have hmax : max block.last block.first = block.last := Nat.max_eq_left hle
  constructor
  · intro h
    cases h with
    | whole hdistance hcount hfew =>
        obtain ⟨-, rfl⟩ := Count.sub?_eq_some_iff.1 hdistance
        obtain ⟨-, rfl⟩ := Count.add?_eq_some_iff.1 hcount
        exact (if_pos hfew).symm
    | split hdistance hcount hmany hloop =>
        obtain ⟨-, rfl⟩ := Count.sub?_eq_some_iff.1 hdistance
        obtain ⟨-, rfl⟩ := Count.add?_eq_some_iff.1 hcount
        exact (eq_windowsFrom_of_computesFrom o.windowStep_pos hloop).trans (if_neg hmany).symm
  · rintro rfl
    have hdistance : Count.sub? (max block.last block.first) block.first =
        some (max block.last block.first - block.first) :=
      Count.sub?_eq_some_iff.2 ⟨Nat.le_max_right _ _, rfl⟩
    have hcount : Count.add? (max block.last block.first - block.first) 1 =
        some (max block.last block.first - block.first + 1) :=
      Count.add?_eq_some_iff.2 ⟨by unfold maxCount; omega, rfl⟩
    unfold windows
    dsimp only
    split
    · next hfew => exact .whole hdistance hcount hfew
    · next hmany =>
      obtain ⟨hcount_lt, hsize⟩ := not_or.1 hmany
      refine .split hdistance hcount hmany ?_
      refine computesFrom_windowsFrom (Options.windowStep_le_chunkSize hsize) (by omega) ?_
      simp only [Options.splitThreshold, Options.splitFactor, maxCount] at hcount_lt ⊢
      omega

/-! ## The shape -/

theorem windows_of_le (o : Options) (block : LineRange) (hle : block.first ≤ block.last)
    (h : o.chunkSize = 0 ∨ block.last - block.first + 1 ≤ o.splitThreshold) :
    windows o block = [block] := by
  simp only [windows, Nat.max_eq_left hle]
  rw [if_pos h.symm]

theorem windows_of_lt (o : Options) (block : LineRange) (hle : block.first ≤ block.last)
    (hsize : o.chunkSize ≠ 0) (h : o.splitThreshold < block.last - block.first + 1) :
    windows o block =
      windowsFrom o.chunkSize o.windowStep block.last o.windowStep_pos block.first := by
  simp only [windows, Nat.max_eq_left hle]
  rw [if_neg (not_or.2 ⟨Nat.not_le_of_lt h, hsize⟩)]

/-- What neighbours share, in terms of the options. -/
theorem chunkSize_sub_windowStep (o : Options) :
    o.chunkSize - o.windowStep = min o.chunkOverlap (o.chunkSize - 1) := by
  unfold Options.windowStep
  omega

theorem splitThreshold_eq (o : Options) : o.splitThreshold = min (3 * o.chunkSize) maxCount := by
  rw [Options.splitThreshold, Options.splitFactor, Nat.mul_comm]

theorem card_lines_le_of_mem_windows {o : Options} {block window : LineRange}
    (hle : block.first ≤ block.last) (hpos : 0 < o.chunkSize) (h : window ∈ windows o block) :
    window.lines.card ≤ 3 * o.chunkSize := by
  rcases Nat.lt_or_ge o.splitThreshold (block.last - block.first + 1) with hmany | hfew
  · rw [windows_of_lt o block hle (Nat.ne_of_gt hpos) hmany] at h
    have := card_lines_le_of_mem_windowsFrom hpos h
    omega
  · rw [windows_of_le o block hle (.inr hfew)] at h
    obtain rfl := List.mem_singleton.1 h
    rw [splitThreshold_eq] at hfew
    rw [card_lines]
    omega

/-- The windows of a block, whatever the options. Cutting it comes to its end within the range of
counts. A block that need not or cannot be split is its only window. Otherwise windows run from the
first line to the last: all but the last are full, neighbours share the overlap, as far as a step
forward allows it, each window has a line of its own, and together they have the lines of the
block. No window is longer than three times the size. -/
theorem windows_shape (o : Options) {first last : Nat} (hle : first ≤ last)
    (hlast : last < 2 ^ 63) :
    let count := last - first + 1
    let step := max (o.chunkSize - o.chunkOverlap) 1
    let windows := windows o ⟨first, last⟩
    (∀ result, Computes o ⟨first, last⟩ result ↔ result = windows) ∧
    (o.chunkSize = 0 ∨ count ≤ min (3 * o.chunkSize) maxCount → windows = [⟨first, last⟩]) ∧
    (o.chunkSize ≠ 0 → min (3 * o.chunkSize) maxCount < count →
      windows.head?.map (·.first) = some first ∧
      windows.getLast?.map (·.last) = some last ∧
      (∀ window ∈ windows.dropLast, window.lines.card = o.chunkSize) ∧
      (windows.IsChain fun window next =>
        (window.lines ∩ next.lines).card = min o.chunkOverlap (o.chunkSize - 1)) ∧
      (∀ earlier window later, windows = earlier ++ window :: later →
        ∃ line ∈ window.lines, ∀ before ∈ earlier, line ∉ before.lines) ∧
      windows.length = 1 + (count - o.chunkSize) ⌈/⌉ step ∧
      ∀ line, (∃ window ∈ windows, line ∈ window.lines) ↔ first ≤ line ∧ line ≤ last) ∧
    (0 < o.chunkSize → ∀ window ∈ windows, window.lines.card ≤ 3 * o.chunkSize) := by
  intro count step windows
  rw [← splitThreshold_eq]
  refine ⟨fun _ => computes_iff o hle hlast, windows_of_le o ⟨first, last⟩ hle, ?_, ?_⟩
  · intro hsize hmany
    have hpos : 0 < o.chunkSize := Nat.pos_of_ne_zero hsize
    have hstep := Options.windowStep_le_chunkSize hsize
    have hwindows : windows = windowsFrom o.chunkSize o.windowStep last o.windowStep_pos first :=
      windows_of_lt o ⟨first, last⟩ hle hsize hmany
    refine ⟨head?_windows, getLast?_windows hle, ?_, ?_, ?_, ?_, ?_⟩
    · intro window hwindow
      rw [hwindows] at hwindow
      exact card_lines_of_mem_dropLast_windowsFrom hpos hwindow
    · rw [hwindows, ← chunkSize_sub_windowStep]
      exact (isChain_windowsFrom hpos).imp fun _ _ => Follows.card_inter
    · intro earlier window later hsplit
      rw [hwindows] at hsplit
      exact exists_new_line_of_windowsFrom hstep hle hsplit
    · rw [hwindows, length_windowsFrom hpos, show last + 1 - first - o.chunkSize =
        count - o.chunkSize by omega]
      rfl
    · intro line
      simpa only [contains_iff, mem_lines] using
        @exists_mem_windows_contains_iff o ⟨first, last⟩ hle line
  · intro hpos window hwindow
    exact card_lines_le_of_mem_windows hle hpos hwindow

/-- An overlap that is longer than a window: windows move on by one line, and neighbours share all
lines but one. -/
theorem windows_shape_longOverlap :
    min (3 * 4) maxCount < 17 - 5 + 1 ∧
    Computes ⟨4, 9⟩ ⟨5, 17⟩ (windows ⟨4, 9⟩ ⟨5, 17⟩) ∧
    (windows ⟨4, 9⟩ ⟨5, 17⟩).length = 10 ∧
    (windows ⟨4, 9⟩ ⟨5, 17⟩).IsChain (fun window next => (window.lines ∩ next.lines).card = 3) ∧
    ∀ window ∈ windows ⟨4, 9⟩ ⟨5, 17⟩, window.lines.card ≤ 12 := by
  have hmany : min (3 * 4) maxCount < 17 - 5 + 1 := by decide
  obtain ⟨hcomputes, -, hsplit, hlong⟩ :=
    windows_shape ⟨4, 9⟩ (show 5 ≤ 17 by decide) (by decide)
  obtain ⟨-, -, -, hshare, -, hlength, -⟩ := hsplit (by decide) hmany
  exact ⟨hmany, (hcomputes _).2 rfl, hlength, hshare, hlong (by decide)⟩

end LineRange

end SourceChunks
