-- SUMMARY: What windows and runs cover: every line of a block, and every line outside that is not blank.
import SourceChunks.Windows

/-!
# Windows and runs cover lines

Whatever the options, the windows of a block cover the lines of the block and no others, from its
first line to its last. The runs of a file hold no covered line, and every line that is neither
covered nor blank is in one of them.
-/

namespace SourceChunks

theorem Options.windowStep_le_chunkSize {o : Options} (h : o.chunkSize ≠ 0) :
    o.windowStep ≤ o.chunkSize := by
  unfold windowStep
  omega

namespace LineRange

theorem contains_iff {range : LineRange} {line : Nat} :
    range.contains line = true ↔ range.first ≤ line ∧ line ≤ range.last := by
  simp [contains]

/-! ## Windows -/

section WindowsFrom

variable {size step last first : Nat} {hstep : 0 < step}

theorem bounds_of_mem_windowsFrom {window : LineRange} (hsize : step ≤ size) (hle : first ≤ last)
    (h : window ∈ windowsFrom size step last hstep first) :
    first ≤ window.first ∧ window.first ≤ window.last ∧ window.last ≤ last := by
  fun_induction windowsFrom size step last hstep first with
  | case1 first hlast =>
      simp only [List.mem_singleton] at h
      subst h
      exact ⟨Nat.le_refl _, hle, Nat.le_refl _⟩
  | case2 first hlast ih =>
      rcases List.mem_cons.1 h with rfl | h
      · dsimp only
        omega
      · obtain ⟨h₁, h₂, h₃⟩ := ih (by omega) h
        exact ⟨by omega, h₂, h₃⟩

/-- Steps no longer than a window leave no gap. -/
theorem exists_mem_windowsFrom_contains {line : Nat} (hsize : step ≤ size) (hfirst : first ≤ line)
    (hlast : line ≤ last) : ∃ window ∈ windowsFrom size step last hstep first,
      window.contains line = true := by
  fun_induction windowsFrom size step last hstep first with
  | case1 first hend =>
      exact ⟨_, List.mem_singleton.2 rfl, contains_iff.2 ⟨hfirst, hlast⟩⟩
  | case2 first hend ih =>
      by_cases hline : line ≤ first + size - 1
      · exact ⟨_, List.mem_cons_self, contains_iff.2 ⟨hfirst, hline⟩⟩
      · obtain ⟨window, hmem, hcontains⟩ := ih (by omega)
        exact ⟨window, List.mem_cons_of_mem _ hmem, hcontains⟩

theorem windowsFrom_ne_nil : windowsFrom size step last hstep first ≠ [] := by
  unfold windowsFrom
  split <;> simp

theorem head?_windowsFrom :
    (windowsFrom size step last hstep first).head?.map (·.first) = some first := by
  unfold windowsFrom
  split <;> simp

theorem getLast?_windowsFrom :
    (windowsFrom size step last hstep first).getLast?.map (·.last) = some last := by
  fun_induction windowsFrom size step last hstep first with
  | case1 first hend => simp
  | case2 first hend ih =>
      rwa [List.getLast?_cons_of_ne_nil windowsFrom_ne_nil]

/-- A window that does not reach the last line is full. -/
theorem full_of_mem_windowsFrom (hsize : 0 < size) {window : LineRange}
    (h : window ∈ windowsFrom size step last hstep first) :
    window.last = last ∨ window.last + 1 = window.first + size := by
  fun_induction windowsFrom size step last hstep first with
  | case1 first hend =>
      obtain rfl := List.mem_singleton.1 h
      exact .inl rfl
  | case2 first hend ih =>
      rcases List.mem_cons.1 h with rfl | h
      · exact .inr (by dsimp only; omega)
      · exact ih h

end WindowsFrom

section Windows

variable {o : Options} {block : LineRange}

/-- A block that is not split is its only window; one that is split has windows of the given size
and step. -/
theorem windows_cases (o : Options) (block : LineRange) :
    windows o block = [⟨block.first, max block.last block.first⟩] ∨
      (o.chunkSize ≠ 0 ∧ windows o block =
        windowsFrom o.chunkSize o.windowStep (max block.last block.first) o.windowStep_pos
          block.first) := by
  by_cases h : max block.last block.first - block.first + 1 ≤ o.splitThreshold ∨ o.chunkSize = 0
  · exact .inl (if_pos h)
  · exact .inr ⟨fun hzero => h (.inr hzero), if_neg h⟩

theorem bounds_of_mem_windows (hblock : block.first ≤ block.last) {window : LineRange}
    (h : window ∈ windows o block) :
    block.first ≤ window.first ∧ window.first ≤ window.last ∧ window.last ≤ block.last := by
  rcases windows_cases o block with heq | ⟨hsize, heq⟩
  · rw [heq, List.mem_singleton, Nat.max_eq_left hblock] at h
    subst h
    exact ⟨Nat.le_refl _, hblock, Nat.le_refl _⟩
  · rw [heq, Nat.max_eq_left hblock] at h
    exact bounds_of_mem_windowsFrom (Options.windowStep_le_chunkSize hsize) hblock h

/-- The windows of a block cover its lines and no others, whatever the options. -/
theorem exists_mem_windows_contains_iff (hblock : block.first ≤ block.last) {line : Nat} :
    (∃ window ∈ windows o block, window.contains line = true) ↔ block.contains line = true := by
  constructor
  · rintro ⟨window, hmem, hcontains⟩
    obtain ⟨h₁, -, h₃⟩ := bounds_of_mem_windows hblock hmem
    obtain ⟨h₄, h₅⟩ := contains_iff.1 hcontains
    exact contains_iff.2 ⟨Nat.le_trans h₁ h₄, Nat.le_trans h₅ h₃⟩
  · intro hcontains
    obtain ⟨hfirst, hlast⟩ := contains_iff.1 hcontains
    rcases windows_cases o block with heq | ⟨hsize, heq⟩
    · rw [heq, Nat.max_eq_left hblock]
      exact ⟨_, List.mem_singleton.2 rfl, hcontains⟩
    · rw [heq, Nat.max_eq_left hblock]
      exact exists_mem_windowsFrom_contains (Options.windowStep_le_chunkSize hsize) hfirst hlast

/-- The only window of a block has all of its lines. -/
theorem contains_of_windows_single (hblock : block.first ≤ block.last) {window : LineRange}
    {line : Nat} (hsingle : ¬ (windows o block).length > 1) (hwindow : window ∈ windows o block)
    (hline : block.contains line = true) : window.contains line = true := by
  obtain ⟨other, hother, hcontains⟩ := (exists_mem_windows_contains_iff hblock).2 hline
  match hwindows : windows o block with
  | [] => simp [hwindows] at hwindow
  | [only] =>
      rw [hwindows, List.mem_singleton] at hwindow hother
      rwa [hwindow, ← hother]
  | _ :: _ :: _ => simp [hwindows] at hsingle

theorem head?_windows : (windows o block).head?.map (·.first) = some block.first := by
  rcases windows_cases o block with heq | ⟨-, heq⟩
  · simp [heq]
  · rw [heq, head?_windowsFrom]

theorem getLast?_windows (hblock : block.first ≤ block.last) :
    (windows o block).getLast?.map (·.last) = some block.last := by
  rcases windows_cases o block with heq | ⟨-, heq⟩
  · simp [heq, Nat.max_eq_left hblock]
  · rw [heq, Nat.max_eq_left hblock, getLast?_windowsFrom]

/-- A window that does not reach the last line of its block is full, and the block is split. -/
theorem full_of_mem_windows (hblock : block.first ≤ block.last) {window : LineRange}
    (h : window ∈ windows o block) (hlast : window.last ≠ block.last) :
    o.splitThreshold < block.last - block.first + 1 ∧
      window.last + 1 = window.first + o.chunkSize := by
  unfold windows at h
  dsimp only at h
  rw [Nat.max_eq_left hblock] at h
  split at h
  · obtain rfl := List.mem_singleton.1 h
    exact absurd rfl hlast
  · next hsplit =>
    obtain ⟨hmany, hsize⟩ := not_or.1 hsplit
    refine ⟨Nat.lt_of_not_le hmany, ?_⟩
    exact (full_of_mem_windowsFrom (Nat.pos_of_ne_zero hsize) h).resolve_left hlast

end Windows

/-! ## Runs -/

section Runs

variable {texts : List String} {covered : List Bool}

/-- The part of a run that has been read lies before the line that is read next. -/
def ReadBefore (run : Option LineRange) (line : Nat) : Prop :=
  ∀ range ∈ run, range.first ≤ range.last ∧ range.last < line

theorem readBefore_none {line : Nat} : ReadBefore none line := by
  simp [ReadBefore]

theorem ReadBefore.succ {run : Option LineRange} {line : Nat} (h : ReadBefore run line) :
    ReadBefore run (line + 1) :=
  fun range hrange => ⟨(h range hrange).1, Nat.lt_succ_of_lt (h range hrange).2⟩

theorem last_extendTo (run : Option LineRange) (line : Nat) :
    (extendTo run line).last = line := by
  cases run <;> rfl

theorem ReadBefore.extendTo {run : Option LineRange} {line : Nat} (h : ReadBefore run line) :
    ReadBefore (some (extendTo run line)) (line + 1) := by
  rintro range ⟨⟩
  cases run with
  | none => simp [LineRange.extendTo]
  | some range =>
      obtain ⟨h₁, h₂⟩ := h range rfl
      simp only [LineRange.extendTo]
      omega

theorem exists_mem_of_extendTo {run : Option LineRange} {line l : Nat}
    (h : (extendTo run line).first ≤ l) (hl : l < line) : ∃ range ∈ run, range.first ≤ l := by
  cases run with
  | none => simp only [LineRange.extendTo] at h; omega
  | some range => exact ⟨range, rfl, h⟩

/-- Flags ahead of the next line are the same flags seen from here. -/
private theorem getD_tail {line l : Nat} (h : line < l) :
    covered.tail.getD (l - (line + 1)) false = covered.getD (l - line) false := by
  rw [show l - line = l - (line + 1) + 1 by omega]
  simp [List.getD_eq_getElem?_getD]

/-- A line of a run was in the part read before, or is a line ahead that is not covered. -/
theorem uncovered_of_mem_runsFrom {line : Nat} {run : Option LineRange} {range : LineRange}
    (hrun : ReadBefore run line) (h : range ∈ runsFrom line run texts covered) {l : Nat}
    (hl : range.contains l = true) :
    (∃ before ∈ run, before.first ≤ l ∧ l < line) ∨
      (line ≤ l ∧ l < line + texts.length ∧ covered.getD (l - line) false = false) := by
  induction texts generalizing line run covered with
  | nil =>
      have hmem : range ∈ run := by simpa [runsFrom] using h
      have := (hrun range hmem).2
      obtain ⟨h₁, h₂⟩ := contains_iff.1 hl
      exact .inl ⟨range, hmem, h₁, by omega⟩
  | cons text texts ih =>
      rw [List.length_cons]
      unfold runsFrom at h
      split at h
      · rcases List.mem_append.1 h with hmem | hmem
        · have hmem : range ∈ run := by simpa using hmem
          have := (hrun range hmem).2
          obtain ⟨h₁, h₂⟩ := contains_iff.1 hl
          exact .inl ⟨range, hmem, h₁, by omega⟩
        · rcases ih readBefore_none hmem with ⟨before, hbefore, -⟩ | ⟨h₁, h₂, h₃⟩
          · simp at hbefore
          · exact .inr ⟨by omega, by omega, getD_tail h₁ ▸ h₃⟩
      · next hfree =>
        have hhere : covered.getD (line - line) false = false := by
          cases covered <;> simp_all
        split at h
        · rcases ih hrun.succ h with ⟨before, hbefore, h₁, h₂⟩ | ⟨h₁, h₂, h₃⟩
          · rcases Nat.lt_succ_iff_lt_or_eq.1 h₂ with h₂ | rfl
            · exact .inl ⟨before, hbefore, h₁, h₂⟩
            · exact .inr ⟨Nat.le_refl _, by omega, hhere⟩
          · exact .inr ⟨by omega, by omega, getD_tail h₁ ▸ h₃⟩
        · rcases ih hrun.extendTo h with ⟨before, ⟨⟩, h₁, h₂⟩ | ⟨h₁, h₂, h₃⟩
          · rcases Nat.lt_succ_iff_lt_or_eq.1 h₂ with h₂ | rfl
            · obtain ⟨before, hbefore, h₁⟩ := exists_mem_of_extendTo h₁ h₂
              exact .inl ⟨before, hbefore, h₁, h₂⟩
            · exact .inr ⟨Nat.le_refl _, by omega, hhere⟩
          · exact .inr ⟨by omega, by omega, getD_tail h₁ ▸ h₃⟩

/-- The run that is being read goes on, or is complete. -/
theorem exists_mem_runsFrom_of_read (texts : List String) (covered : List Bool) {line : Nat}
    {range : LineRange} (hread : range.last < line) :
    ∃ whole ∈ runsFrom line (some range) texts covered,
      whole.first = range.first ∧ range.last ≤ whole.last := by
  induction texts generalizing line range covered with
  | nil => exact ⟨range, by simp [runsFrom], rfl, Nat.le_refl _⟩
  | cons text texts ih =>
      unfold runsFrom
      split
      · exact ⟨range, by simp, rfl, Nat.le_refl _⟩
      · split
        · exact ih covered.tail (by omega)
        · have hlast : (extendTo (some range) line).last < line + 1 := Nat.lt_succ_self _
          obtain ⟨whole, hmem, hfirst, hlast⟩ := ih covered.tail hlast
          exact ⟨whole, hmem, hfirst, Nat.le_trans (Nat.le_of_lt hread) hlast⟩

/-- A line ahead that is neither covered nor blank is in a run. -/
theorem exists_mem_runsFrom_contains {line : Nat} {run : Option LineRange}
    (hrun : ReadBefore run line) {i : Nat} {text : String} (htext : texts[i]? = some text)
    (hblank : Text.isBlankText text = false) (hfree : covered.getD i false = false) :
    ∃ range ∈ runsFrom line run texts covered, range.contains (line + i) = true := by
  induction texts generalizing line run covered i with
  | nil => simp at htext
  | cons head texts ih =>
      cases i with
      | zero =>
          obtain rfl : head = text := by simpa using htext
          have hflag : covered.headD false = false := by
            cases covered <;> simp_all
          have hstep : runsFrom line run (head :: texts) covered =
              runsFrom (line + 1) (some (extendTo run line)) texts covered.tail := by
            simp only [runsFrom, hflag, hblank, Bool.false_eq_true, if_false]
          obtain ⟨hread, hbefore⟩ := hrun.extendTo _ rfl
          obtain ⟨whole, hmem, hfirst, hlast⟩ :=
            exists_mem_runsFrom_of_read texts covered.tail hbefore
          rw [last_extendTo] at hread hlast
          exact ⟨whole, hstep ▸ hmem, contains_iff.2 ⟨by omega, by omega⟩⟩
      | succ i =>
          have htext : texts[i]? = some text := by simpa using htext
          have hfree : covered.tail.getD i false = false := by
            cases covered <;> simp_all
          rw [show line + (i + 1) = line + 1 + i by omega]
          unfold runsFrom
          split
          · obtain ⟨range, hmem, hcontains⟩ := ih readBefore_none htext hfree
            exact ⟨range, List.mem_append_right _ hmem, hcontains⟩
          · split
            · exact ih hrun.succ htext hfree
            · exact ih hrun.extendTo htext hfree

theorem first_le_last_of_mem_runsFrom {line : Nat} {run : Option LineRange} {range : LineRange}
    (hrun : ReadBefore run line) (h : range ∈ runsFrom line run texts covered) :
    range.first ≤ range.last := by
  induction texts generalizing line run covered with
  | nil => exact (hrun range (by simpa [runsFrom] using h)).1
  | cons text texts ih =>
      unfold runsFrom at h
      split at h
      · rcases List.mem_append.1 h with hmem | hmem
        · exact (hrun range (by simpa using hmem)).1
        · exact ih readBefore_none hmem
      · split at h
        · exact ih hrun.succ h
        · exact ih hrun.extendTo h

theorem first_le_last_of_mem_uncovered {range : LineRange} (h : range ∈ uncovered texts covered) :
    range.first ≤ range.last :=
  first_le_last_of_mem_runsFrom readBefore_none h

/-- The lines of a run are lines of the file that nothing covers. -/
theorem free_of_mem_uncovered {range : LineRange} {l : Nat} (h : range ∈ uncovered texts covered)
    (hl : range.contains l = true) :
    1 ≤ l ∧ l ≤ texts.length ∧ covered.getD (l - 1) false = false := by
  rcases uncovered_of_mem_runsFrom readBefore_none h hl with ⟨before, hbefore, -⟩ | ⟨h₁, h₂, h₃⟩
  · simp at hbefore
  · exact ⟨h₁, by omega, h₃⟩

/-- A run lies on the lines it was read from. -/
theorem bounds_of_mem_uncovered {range : LineRange} (h : range ∈ uncovered texts covered) :
    1 ≤ range.first ∧ range.first ≤ range.last ∧ range.last ≤ texts.length := by
  have hle := first_le_last_of_mem_uncovered h
  have hfirst := free_of_mem_uncovered h (contains_iff.2 ⟨Nat.le_refl _, hle⟩)
  have hlast := free_of_mem_uncovered h (contains_iff.2 ⟨hle, Nat.le_refl _⟩)
  exact ⟨hfirst.1, hle, hlast.2.1⟩

/-- Where the lines that are not blank have a property, the first and the last line of each run
have it. -/
theorem ends_of_mem_runsFrom {p : Nat → Prop} {line : Nat} {run : Option LineRange}
    {range : LineRange} (hrun : ∀ before ∈ run, p before.first ∧ p before.last)
    (htexts : ∀ i text, texts[i]? = some text → Text.isBlankText text = false → p (line + i))
    (h : range ∈ runsFrom line run texts covered) : p range.first ∧ p range.last := by
  induction texts generalizing line run covered with
  | nil => exact hrun range (by simpa [runsFrom] using h)
  | cons text texts ih =>
      have hahead : ∀ i text, texts[i]? = some text → Text.isBlankText text = false →
          p (line + 1 + i) := by
        intro i other hother hblank
        rw [show line + 1 + i = line + (i + 1) by omega]
        exact htexts (i + 1) other (by simpa using hother) hblank
      unfold runsFrom at h
      split at h
      · rcases List.mem_append.1 h with hmem | hmem
        · exact hrun range (by simpa using hmem)
        · exact ih (by simp) hahead hmem
      · split at h
        · exact ih hrun hahead h
        · next hblank =>
          have hline : p line := htexts 0 text rfl (by simpa using hblank)
          refine ih ?_ hahead h
          rintro _ ⟨⟩
          cases run with
          | none => exact ⟨hline, hline⟩
          | some before => exact ⟨(hrun before rfl).1, hline⟩

/-- A run begins and ends with a line that is not blank. -/
theorem ends_of_mem_uncovered {range : LineRange} (h : range ∈ uncovered texts covered) :
    (∃ i text, range.first = i + 1 ∧ texts[i]? = some text ∧ Text.isBlankText text = false) ∧
      ∃ i text, range.last = i + 1 ∧ texts[i]? = some text ∧ Text.isBlankText text = false := by
  refine ends_of_mem_runsFrom
    (p := fun l => ∃ i text, l = i + 1 ∧ texts[i]? = some text ∧ Text.isBlankText text = false)
    (by simp) ?_ h
  intro i text htext hblank
  exact ⟨i, text, Nat.add_comm 1 i, htext, hblank⟩

/-- A line that is neither covered nor blank is in a run. -/
theorem exists_mem_uncovered_contains {i : Nat} {text : String} (htext : texts[i]? = some text)
    (hblank : Text.isBlankText text = false) (hfree : covered.getD i false = false) :
    ∃ range ∈ uncovered texts covered, range.contains (i + 1) = true := by
  rw [Nat.add_comm]
  exact exists_mem_runsFrom_contains readBefore_none htext hblank hfree

/-- Runs stand one behind the other, with a covered line between them. -/
theorem separated_runsFrom {line : Nat} {run : Option LineRange} (hrun : ReadBefore run line) :
    (runsFrom line run texts covered).Pairwise fun a b =>
      ∃ l, a.last < l ∧ l < b.first ∧ line ≤ l ∧ covered.getD (l - line) false = true := by
  induction texts generalizing line run covered with
  | nil => cases run <;> simp [runsFrom]
  | cons text texts ih =>
      have hahead : ∀ a b : LineRange, (∃ l, a.last < l ∧ l < b.first ∧ line + 1 ≤ l ∧
          covered.tail.getD (l - (line + 1)) false = true) →
          ∃ l, a.last < l ∧ l < b.first ∧ line ≤ l ∧ covered.getD (l - line) false = true := by
        rintro a b ⟨l, h₁, h₂, h₃, hcovered⟩
        exact ⟨l, h₁, h₂, by omega, getD_tail h₃ ▸ hcovered⟩
      unfold runsFrom
      split
      · next hflag =>
        have hhere : covered.getD (line - line) false = true := by
          cases covered <;> simp_all
        refine List.pairwise_append.2
          ⟨by cases run <;> simp, (ih readBefore_none).imp (hahead _ _), ?_⟩
        intro before hbefore after hafter
        have hread := (hrun before (by simpa using hbefore)).2
        -- what comes later begins behind the covered line
        have hfirst : after.contains after.first = true :=
          contains_iff.2 ⟨Nat.le_refl _, first_le_last_of_mem_runsFrom readBefore_none hafter⟩
        rcases uncovered_of_mem_runsFrom readBefore_none hafter hfirst with ⟨_, hnone, -⟩ | ⟨hle, -⟩
        · simp at hnone
        · exact ⟨line, hread, by omega, Nat.le_refl _, hhere⟩
      · split
        · exact (ih hrun.succ).imp (hahead _ _)
        · exact (ih hrun.extendTo).imp (hahead _ _)

/-- Between any two runs there is a covered line. -/
theorem separated_uncovered (texts : List String) (covered : List Bool) :
    (uncovered texts covered).Pairwise fun a b =>
      ∃ line, a.last < line ∧ line < b.first ∧ covered.getD (line - 1) false = true := by
  refine (separated_runsFrom readBefore_none).imp ?_
  rintro a b ⟨line, h₁, h₂, -, hcovered⟩
  exact ⟨line, h₁, h₂, hcovered⟩

/-- Of two different runs either may come first. -/
theorem exists_covered_of_ne {a b : LineRange} (ha : a ∈ uncovered texts covered)
    (hb : b ∈ uncovered texts covered) (hne : a ≠ b) :
    ∃ line, (a.last < line ∧ line < b.first ∨ b.last < line ∧ line < a.first) ∧
      covered.getD (line - 1) false = true := by
  obtain ⟨i, hi, rfl⟩ := List.getElem_of_mem ha
  obtain ⟨j, hj, rfl⟩ := List.getElem_of_mem hb
  have hordered := List.pairwise_iff_getElem.1 (separated_uncovered texts covered)
  rcases Nat.lt_trichotomy i j with hij | rfl | hji
  · obtain ⟨line, h₁, h₂, hcovered⟩ := hordered i j hi hj hij
    exact ⟨line, .inl ⟨h₁, h₂⟩, hcovered⟩
  · exact absurd rfl hne
  · obtain ⟨line, h₁, h₂, hcovered⟩ := hordered j i hj hi hji
    exact ⟨line, .inr ⟨h₁, h₂⟩, hcovered⟩

/-- No two runs share a line. -/
theorem eq_of_mem_uncovered {a b : LineRange} {line : Nat} (ha : a ∈ uncovered texts covered)
    (hb : b ∈ uncovered texts covered) (hla : a.contains line = true)
    (hlb : b.contains line = true) : a = b := by
  obtain ⟨hfirst, hlast⟩ := contains_iff.1 hla
  obtain ⟨hfirst', hlast'⟩ := contains_iff.1 hlb
  apply Decidable.byContradiction
  intro hne
  obtain ⟨between, hbetween, -⟩ := exists_covered_of_ne ha hb hne
  omega

/-- Flags that are given for each line, read back. -/
theorem getD_flags (flag : Nat → Bool) {count line : Nat} (hpos : 1 ≤ line) (hle : line ≤ count) :
    ((List.range' 1 count).map flag).getD (line - 1) false = flag line := by
  rw [List.getD_eq_getElem?_getD, List.getElem?_map, List.getElem?_range' (by omega)]
  simp [show 1 + (line - 1) = line by omega]

end Runs

end LineRange

end SourceChunks
