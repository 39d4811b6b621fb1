-- SUMMARY: Where the characters of a text stand: byte offsets, rows and columns, and the lines that hold them.
import SourceChunks.Text.Lines

/-!
# Characters, offsets and lines

The text has three views that must agree: characters at byte offsets, rows counted by line feeds,
and the list of lines, which has no empty line after the last line feed. A character that is not
blank stands on row `i` exactly if line `i` holds it, and an offset inside the text is on a row that
the list of lines reaches.
-/

namespace SourceChunks.Text

/-! ## Byte lengths -/

@[simp] theorem byteLength_nil : byteLength [] = 0 := rfl

@[simp] theorem byteLength_cons (c : Char) (cs : List Char) :
    byteLength (c :: cs) = c.utf8Size + byteLength cs := rfl

@[simp] theorem byteLength_append (xs ys : List Char) :
    byteLength (xs ++ ys) = byteLength xs + byteLength ys := by
  induction xs with
  | nil => simp
  | cons c cs ih => simp [ih, Nat.add_assoc]

@[simp] theorem byteLength_replicate_space (k : Nat) : byteLength (List.replicate k ' ') = k := by
  induction k with
  | zero => rfl
  | succ k ih =>
      rw [List.replicate_succ, byteLength_cons, ih, show ' '.utf8Size = 1 from rfl]
      omega

@[simp] theorem takeBytes_zero (cs : List Char) : takeBytes 0 cs = [] := by
  cases cs with
  | nil => rfl
  | cons c cs => simp [takeBytes, Nat.not_le.2 c.utf8Size_pos]

theorem byteLength_pos {cs : List Char} (h : cs ≠ []) : 0 < byteLength cs := by
  cases cs with
  | nil => exact absurd rfl h
  | cons c cs =>
      have := c.utf8Size_pos
      rw [byteLength_cons]
      omega

/-! ## Characters at offsets -/

/-- The character `c` begins at a byte offset of a text. -/
def IsCharAt (cs : List Char) (offset : Nat) (c : Char) : Prop :=
  ∃ before after, cs = before ++ c :: after ∧ byteLength before = offset

theorem not_isCharAt_nil {offset : Nat} {c : Char} : ¬ IsCharAt [] offset c := by
  rintro ⟨before, after, h, -⟩
  simp at h

theorem isCharAt_cons_iff {d c : Char} {cs : List Char} {offset : Nat} :
    IsCharAt (d :: cs) offset c ↔
      (offset = 0 ∧ c = d) ∨ (d.utf8Size ≤ offset ∧ IsCharAt cs (offset - d.utf8Size) c) := by
  constructor
  · rintro ⟨before, after, h, rfl⟩
    cases before with
    | nil =>
        simp only [List.nil_append, List.cons.injEq] at h
        exact .inl ⟨rfl, h.1.symm⟩
    | cons b before =>
        simp only [List.cons_append, List.cons.injEq] at h
        obtain ⟨rfl, rfl⟩ := h
        exact .inr ⟨by simp, before, after, rfl, by simp⟩
  · rintro (⟨rfl, rfl⟩ | ⟨hle, before, after, rfl, hlen⟩)
    · exact ⟨[], cs, rfl, rfl⟩
    · exact ⟨d :: before, after, rfl, by rw [byteLength_cons]; omega⟩

theorem isCharAt_append_iff {xs ys : List Char} {offset : Nat} {c : Char} :
    IsCharAt (xs ++ ys) offset c ↔
      IsCharAt xs offset c ∨ (byteLength xs ≤ offset ∧ IsCharAt ys (offset - byteLength xs) c) := by
  induction xs generalizing offset with
  | nil => simp [not_isCharAt_nil]
  | cons d xs ih =>
      rw [List.cons_append, isCharAt_cons_iff, isCharAt_cons_iff, ih, byteLength_cons,
        ← Nat.sub_sub]
      constructor
      · rintro (h | ⟨hd, h | ⟨hx, h⟩⟩)
        · exact .inl (.inl h)
        · exact .inl (.inr ⟨hd, h⟩)
        · exact .inr ⟨by omega, h⟩
      · rintro ((h | ⟨hd, h⟩) | ⟨hx, h⟩)
        · exact .inl h
        · exact .inr ⟨hd, .inl h⟩
        · exact .inr ⟨by omega, .inr ⟨by omega, h⟩⟩

theorem IsCharAt.lt_byteLength {cs : List Char} {offset : Nat} {c : Char}
    (h : IsCharAt cs offset c) : offset < byteLength cs := by
  obtain ⟨before, after, rfl, rfl⟩ := h
  have := c.utf8Size_pos
  simp only [byteLength_append, byteLength_cons]
  omega

/-! ## Rows -/

@[simp] theorem breaksBefore_zero (cs : List Char) : breaksBefore 0 cs = 0 := by
  simp [breaksBefore]

@[simp] theorem breaksBefore_nil (n : Nat) : breaksBefore n [] = 0 := by
  cases n <;> rfl

theorem breaksBefore_cons {n : Nat} (c : Char) (cs : List Char) (hn : 0 < n) :
    breaksBefore n (c :: cs) =
      (if c = '\n' then 1 else 0) + breaksBefore (n - c.utf8Size) cs := by
  cases n with
  | zero => omega
  | succ n => rfl

/-- A character that is no line feed only shifts the offsets behind it. -/
theorem breaksBefore_cons_of_ne {n : Nat} {c : Char} (cs : List Char) (hc : c ≠ '\n') :
    breaksBefore n (c :: cs) = breaksBefore (n - c.utf8Size) cs := by
  rcases Nat.eq_zero_or_pos n with rfl | hn
  · simp
  · simp [breaksBefore_cons c cs hn, hc]

theorem breaksBefore_replicate_space (n k : Nat) (cs : List Char) :
    breaksBefore n (List.replicate k ' ' ++ cs) = breaksBefore (n - k) cs := by
  induction k generalizing n with
  | zero => simp
  | succ k ih =>
      rw [List.replicate_succ, List.cons_append, breaksBefore_cons_of_ne _ (by decide), ih,
        show ' '.utf8Size = 1 from rfl, show n - (k + 1) = n - 1 - k by omega]

theorem breaksBefore_mono (cs : List Char) {a b : Nat} (h : a ≤ b) :
    breaksBefore a cs ≤ breaksBefore b cs := by
  induction cs generalizing a b with
  | nil => simp
  | cons c cs ih =>
      rcases Nat.eq_zero_or_pos a with rfl | ha
      · simp
      · rw [breaksBefore_cons c cs ha, breaksBefore_cons c cs (by omega)]
        have := ih (a := a - c.utf8Size) (b := b - c.utf8Size) (by omega)
        omega

/-- Rows grow with offsets. -/
theorem rowAt_mono (s : String) {a b : Nat} (h : a ≤ b) : rowAt s a ≤ rowAt s b :=
  breaksBefore_mono s.toList h

theorem lineAt_mono (s : String) {a b : Nat} (h : a ≤ b) : lineAt s a ≤ lineAt s b :=
  Nat.succ_le_succ (rowAt_mono s h)

theorem breaksBefore_le_count (n : Nat) (cs : List Char) :
    breaksBefore n cs ≤ cs.count '\n' := by
  induction cs generalizing n with
  | nil => simp
  | cons c cs ih =>
      rcases Nat.eq_zero_or_pos n with rfl | hn
      · simp
      · have := ih (n - c.utf8Size)
        rw [breaksBefore_cons c cs hn, List.count_cons]
        simp only [beq_iff_eq]
        omega

theorem breaksBefore_byteLength_add (before rest : List Char) (n : Nat) :
    breaksBefore (byteLength before + n) (before ++ rest) =
      before.count '\n' + breaksBefore n rest := by
  induction before with
  | nil => simp
  | cons c cs ih =>
      have hpos := c.utf8Size_pos
      rw [List.cons_append, byteLength_cons, breaksBefore_cons c _ (by omega), List.count_cons,
        show c.utf8Size + byteLength cs + n - c.utf8Size = byteLength cs + n by omega, ih]
      simp only [beq_iff_eq]
      omega

/-- Both ends of a character that is no line feed are on one row. -/
theorem breaksBefore_add_utf8Size {cs : List Char} {offset : Nat} {c : Char}
    (h : IsCharAt cs offset c) (hc : c ≠ '\n') :
    breaksBefore (offset + c.utf8Size) cs = breaksBefore offset cs := by
  obtain ⟨before, after, rfl, rfl⟩ := h
  have hstart := breaksBefore_byteLength_add before (c :: after) 0
  rw [Nat.add_zero] at hstart
  rw [breaksBefore_byteLength_add, hstart, breaksBefore_cons_of_ne after hc, Nat.sub_self,
    breaksBefore_zero, breaksBefore_zero]

/-- A character stands on a row of a text. -/
def OnRow (cs : List Char) (row : Nat) (c : Char) : Prop :=
  ∃ offset, IsCharAt cs offset c ∧ breaksBefore offset cs = row

theorem not_onRow_nil {row : Nat} {c : Char} : ¬ OnRow [] row c := by
  rintro ⟨offset, h, -⟩
  exact not_isCharAt_nil h

theorem onRow_cons_iff {d c : Char} {cs : List Char} {row : Nat} :
    OnRow (d :: cs) row c ↔
      (c = d ∧ row = 0) ∨ ∃ below, OnRow cs below c ∧ row = below + if d = '\n' then 1 else 0 := by
  have hpos := d.utf8Size_pos
  constructor
  · rintro ⟨offset, hat, rfl⟩
    rcases isCharAt_cons_iff.1 hat with ⟨rfl, rfl⟩ | ⟨hle, hat⟩
    · exact .inl ⟨rfl, by simp⟩
    · refine .inr ⟨_, ⟨_, hat, rfl⟩, ?_⟩
      rw [breaksBefore_cons d cs (by omega), Nat.add_comm]
  · rintro (⟨rfl, rfl⟩ | ⟨below, ⟨offset, hat, rfl⟩, rfl⟩)
    · exact ⟨0, isCharAt_cons_iff.2 (.inl ⟨rfl, rfl⟩), by simp⟩
    · refine ⟨offset + d.utf8Size, isCharAt_cons_iff.2 (.inr ⟨by omega, by simpa using hat⟩), ?_⟩
      rw [breaksBefore_cons d cs (by omega), Nat.add_sub_cancel, Nat.add_comm]

/-! ## Columns -/

theorem bytesSinceBreak_cons {n : Nat} (column : Nat) (c : Char) (cs : List Char) (hn : 0 < n) :
    bytesSinceBreak column n (c :: cs) =
      bytesSinceBreak (if c = '\n' then 0 else column + c.utf8Size) (n - c.utf8Size) cs := by
  cases n with
  | zero => omega
  | succ n => rfl

@[simp] theorem bytesSinceBreak_zero (column : Nat) (cs : List Char) :
    bytesSinceBreak column 0 cs = column := by
  simp [bytesSinceBreak]

/-- Column zero of a later row is the place right behind a line feed. -/
theorem bytesSinceBreak_eq_zero_iff {column n : Nat} {cs : List Char} (hn : 0 < n)
    (hle : n ≤ byteLength cs) :
    bytesSinceBreak column n cs = 0 ↔ breaksBefore (n - 1) cs < breaksBefore n cs := by
  induction cs generalizing column n with
  | nil => simp at hle; omega
  | cons c cs ih =>
      have hpos := c.utf8Size_pos
      rw [byteLength_cons] at hle
      rw [bytesSinceBreak_cons column c cs hn, breaksBefore_cons c cs hn]
      rcases Nat.eq_zero_or_pos (n - c.utf8Size) with hin | hout
      · -- the offset ends the first character or lies inside it
        rw [hin]
        by_cases hc : c = '\n'
        · have hone : n - 1 = 0 := by
            rw [hc, show '\n'.utf8Size = 1 from rfl] at hin
            omega
          simp [hc, hone]
        · rw [breaksBefore_cons_of_ne cs hc, show n - 1 - c.utf8Size = 0 by omega]
          simp only [hc, if_false, bytesSinceBreak_zero, breaksBefore_zero]
          omega
      · rw [ih hout (by omega), breaksBefore_cons c cs (by omega),
          show n - 1 - c.utf8Size = n - c.utf8Size - 1 by omega]
        omega

theorem columnAt_eq_zero_iff (s : String) {n : Nat} (hn : 0 < n)
    (hle : n ≤ byteLength s.toList) : columnAt s n = 0 ↔ rowAt s (n - 1) < rowAt s n :=
  bytesSinceBreak_eq_zero_iff hn hle

/-! ## Pieces between line feeds -/

/-- The pieces of a text between its line feeds, which `lines` closes. -/
private abbrev pieces (cs : List Char) : List (List Char) :=
  piecesBetween (· == '\n') cs

private theorem pieces_break (cs : List Char) : pieces ('\n' :: cs) = [] :: pieces cs := by
  simp [pieces, piecesBetween]

private theorem pieces_cons_of_ne {c : Char} (hc : c ≠ '\n') (cs : List Char) :
    ∃ piece rest, pieces cs = piece :: rest ∧ pieces (c :: cs) = (c :: piece) :: rest := by
  obtain ⟨piece, rest, h⟩ := List.exists_cons_of_ne_nil (piecesBetween_ne_nil (· == '\n') cs)
  refine ⟨piece, rest, h, ?_⟩
  simp [pieces, piecesBetween, hc, h]

/-- Piece `i` holds the characters of row `i`, its line feed apart. -/
private theorem exists_piece_iff {cs : List Char} {i : Nat} {c : Char} (hc : c ≠ '\n') :
    (∃ piece, (pieces cs)[i]? = some piece ∧ c ∈ piece) ↔ OnRow cs i c := by
  induction cs generalizing i with
  | nil =>
      have hone : pieces [] = [[]] := rfl
      cases i <;> simp [hone, not_onRow_nil]
  | cons d cs ih =>
      rw [onRow_cons_iff]
      by_cases hd : d = '\n'
      · subst hd
        rw [pieces_break]
        cases i with
        | zero => simp [hc]
        | succ i => simp [hc, ih]
      · obtain ⟨piece, rest, hcs, hdcs⟩ := pieces_cons_of_ne hd cs
        rw [hcs] at ih
        rw [hdcs]
        cases i with
        | zero => simp [hd, ← ih]
        | succ i => simp [hd, ← ih]

/-! ## Lines -/

private theorem mem_dropReturn_iff {c : Char} (hc : c ≠ '\r') (line : List Char) :
    c ∈ dropReturn line ↔ c ∈ line := by
  unfold dropReturn
  split
  · next rest h =>
    have hmem : c ∈ line.reverse ↔ c ∈ rest := by simp [h, hc]
    simpa using hmem.symm
  · rfl

/-- Closing keeps the pieces in place: all but the last lose a carriage return, and the last one
counts only if it is not empty. -/
theorem getElem?_closeLines (pieces : List (List Char)) (i : Nat) :
    (closeLines pieces)[i]? =
      if i + 1 < pieces.length then pieces[i]?.map dropReturn
      else pieces[i]?.filter (!·.isEmpty) := by
  fun_induction closeLines pieces generalizing i with
  | case1 => simp
  | case2 last h => cases i <;> simp_all [Option.filter]
  | case3 last h => cases i <;> simp_all [Option.filter]
  | case4 line rest hrest ih =>
      have hlen : 0 < rest.length := by
        cases rest with
        | nil => simp at hrest
        | cons _ _ => simp
      cases i with
      | zero => simp [hlen]
      | succ i => simp [ih]

/-- Closing loses no character but carriage returns. -/
private theorem exists_closed_iff {pieces : List (List Char)} {i : Nat} {c : Char} (hc : c ≠ '\r') :
    (∃ line, (closeLines pieces)[i]? = some line ∧ c ∈ line) ↔
      ∃ piece, pieces[i]? = some piece ∧ c ∈ piece := by
  rw [getElem?_closeLines]
  split
  · constructor
    · rintro ⟨line, h, hmem⟩
      obtain ⟨piece, hpiece, rfl⟩ := Option.map_eq_some_iff.1 h
      exact ⟨piece, hpiece, (mem_dropReturn_iff hc piece).1 hmem⟩
    · rintro ⟨piece, h, hmem⟩
      exact ⟨dropReturn piece, by simp [h], (mem_dropReturn_iff hc piece).2 hmem⟩
  · constructor
    · rintro ⟨piece, h, hmem⟩
      exact ⟨piece, (Option.filter_eq_some_iff.1 h).1, hmem⟩
    · rintro ⟨piece, h, hmem⟩
      have hne : piece ≠ [] := List.ne_nil_of_mem hmem
      exact ⟨piece, Option.filter_eq_some_iff.2 ⟨h, by simpa using hne⟩, hmem⟩

/-- A character that is not blank stands on a row exactly if the line with that index holds it. -/
theorem exists_line_iff {s : String} {i : Nat} {c : Char} (hc : isBlank c = false) :
    (∃ line, (lines s)[i]? = some line ∧ c ∈ line.toList) ↔ OnRow s.toList i c := by
  have hbreak : c ≠ '\n' := by rintro rfl; simp [isBlank] at hc
  have hreturn : c ≠ '\r' := by rintro rfl; simp [isBlank] at hc
  rw [← exists_piece_iff hbreak, ← exists_closed_iff hreturn]
  simp only [lines, List.getElem?_map]
  constructor
  · rintro ⟨line, h, hmem⟩
    obtain ⟨chars, hchars, rfl⟩ := Option.map_eq_some_iff.1 h
    exact ⟨chars, hchars, by simpa using hmem⟩
  · rintro ⟨chars, h, hmem⟩
    exact ⟨.ofList chars, by rw [h]; rfl, by simpa using hmem⟩

/-- A line, counted from one, holds a character that is not blank. -/
def HoldsText (s : String) (line : Nat) : Prop :=
  ∃ offset c, IsCharAt s.toList offset c ∧ isBlank c = false ∧ lineAt s offset = line

theorem holdsText_iff {s : String} {line : Nat} :
    HoldsText s line ↔
      ∃ i text, line = i + 1 ∧ (lines s)[i]? = some text ∧ isBlankText text = false := by
  constructor
  · rintro ⟨offset, c, hat, hc, rfl⟩
    obtain ⟨text, htext, hmem⟩ := (exists_line_iff hc).2 ⟨offset, hat, rfl⟩
    refine ⟨rowAt s offset, text, rfl, htext, ?_⟩
    simp only [isBlankText, List.all_eq_false]
    exact ⟨c, hmem, by simp [hc]⟩
  · rintro ⟨i, text, rfl, htext, hblank⟩
    simp only [isBlankText, List.all_eq_false, Bool.not_eq_true] at hblank
    obtain ⟨c, hmem, hc⟩ := hblank
    obtain ⟨offset, hat, hrow⟩ := (exists_line_iff hc).1 ⟨text, htext, hmem⟩
    exact ⟨offset, c, hat, hc, congrArg (· + 1) hrow⟩

/-! ## The number of lines -/

/-- Whether a text goes on behind its last line feed. -/
def endsOpen (cs : List Char) : Bool :=
  cs.getLast?.any (· != '\n')

theorem endsOpen_append {ys : List Char} (h : ys ≠ []) (xs : List Char) :
    endsOpen (xs ++ ys) = endsOpen ys := by
  simp [endsOpen, List.getLast?_append, List.getLast?_eq_some_getLast h]

theorem endsOpen_cons {cs : List Char} (h : cs ≠ []) (c : Char) :
    endsOpen (c :: cs) = endsOpen cs :=
  endsOpen_append h [c]

private theorem pieces_ne_singleton_nil {cs : List Char} (h : cs ≠ []) : pieces cs ≠ [[]] := by
  cases cs with
  | nil => exact absurd rfl h
  | cons c cs =>
      by_cases hc : c = '\n'
      · rw [hc, pieces_break]
        simp [piecesBetween_ne_nil]
      · obtain ⟨piece, rest, -, hccs⟩ := pieces_cons_of_ne hc cs
        simp [hccs]

private theorem closeLines_cons (piece : List Char) {rest : List (List Char)} (h : rest ≠ []) :
    closeLines (piece :: rest) = dropReturn piece :: closeLines rest := by
  cases rest with
  | nil => exact absurd rfl h
  | cons next rest => rfl

private theorem length_closeLines_extend (c : Char) {piece : List Char}
    {rest : List (List Char)} (h : piece :: rest ≠ [[]]) :
    (closeLines ((c :: piece) :: rest)).length = (closeLines (piece :: rest)).length := by
  cases rest with
  | nil => simp_all [closeLines]
  | cons next rest => simp [closeLines]

private theorem length_closeLines_pieces (cs : List Char) :
    (closeLines (pieces cs)).length = cs.count '\n' + if endsOpen cs then 1 else 0 := by
  induction cs with
  | nil => rfl
  | cons c cs ih =>
      by_cases hc : c = '\n'
      · subst hc
        rw [pieces_break, closeLines_cons _ (piecesBetween_ne_nil _ cs), List.length_cons, ih,
          List.count_cons_self]
        by_cases hcs : cs = []
        · subst hcs
          rfl
        · rw [endsOpen_cons hcs]
          omega
      · by_cases hcs : cs = []
        · simp [hcs, pieces, piecesBetween, closeLines, endsOpen, hc]
        · obtain ⟨piece, rest, hpieces, hext⟩ := pieces_cons_of_ne hc cs
          rw [hext, length_closeLines_extend c (hpieces ▸ pieces_ne_singleton_nil hcs), ← hpieces,
            ih, endsOpen_cons hcs, List.count_cons_of_ne hc]

/-- Each line feed closes a line, and the text behind the last one makes one more. -/
theorem length_lines (s : String) :
    (lines s).length = s.toList.count '\n' + if endsOpen s.toList then 1 else 0 := by
  rw [lines, List.length_map, length_closeLines_pieces]

theorem rowAt_le_length_lines (s : String) (n : Nat) : rowAt s n ≤ (lines s).length := by
  rw [length_lines]
  exact Nat.le_trans (breaksBefore_le_count n s.toList) (Nat.le_add_right _ _)

private theorem breaksBefore_lt_of_lt {n : Nat} {cs : List Char} (h : n < byteLength cs) :
    breaksBefore n cs < cs.count '\n' + if endsOpen cs then 1 else 0 := by
  induction cs generalizing n with
  | nil => simp at h
  | cons c cs ih =>
      rw [byteLength_cons] at h
      by_cases hcs : cs = []
      · subst hcs
        by_cases hc : c = '\n'
        · have hzero : n = 0 := by
            rw [hc, show '\n'.utf8Size = 1 from rfl, byteLength_nil] at h
            omega
          rw [hc, hzero, breaksBefore_zero, List.count_cons_self]
          omega
        · simp [breaksBefore_cons_of_ne [] hc, endsOpen, hc]
      · have hpos := byteLength_pos hcs
        have hlt := ih (n := n - c.utf8Size) (by omega)
        rw [endsOpen_cons hcs, List.count_cons]
        rcases Nat.eq_zero_or_pos n with rfl | hn
        · rw [breaksBefore_zero]
          omega
        · rw [breaksBefore_cons c cs hn]
          simp only [beq_iff_eq]
          omega

/-- An offset inside a text is on one of its lines. -/
theorem rowAt_lt_length_lines {s : String} {n : Nat} (h : n < byteLength s.toList) :
    rowAt s n < (lines s).length := by
  rw [length_lines]
  exact breaksBefore_lt_of_lt h

/-! ## Line ends -/

/-- A text is cut into lines. A line feed ends a line, with one carriage return in front of it if
there is one; what stands behind the last line feed is a line as it is, unless it is empty. -/
inductive CutsInto : List Char → List (List Char) → Prop where
  | nil : CutsInto [] []
  | last {line : List Char} (hne : line ≠ []) (hbreak : '\n' ∉ line) : CutsInto line [line]
  | feed {line rest : List Char} {lines : List (List Char)} (hbreak : '\n' ∉ line)
      (hreturn : line.getLast? ≠ some '\r') (hrest : CutsInto rest lines) :
      CutsInto (line ++ '\n' :: rest) (line :: lines)
  | returnFeed {line rest : List Char} {lines : List (List Char)} (hbreak : '\n' ∉ line)
      (hrest : CutsInto rest lines) : CutsInto (line ++ '\r' :: '\n' :: rest) (line :: lines)

private theorem dropReturn_cases (line : List Char) :
    line = dropReturn line ++ ['\r'] ∨ (line.getLast? ≠ some '\r' ∧ dropReturn line = line) := by
  unfold dropReturn
  split
  · next rest h =>
    left
    rw [← List.reverse_cons, ← h, List.reverse_reverse]
  · next hnone =>
    refine .inr ⟨?_, rfl⟩
    intro hlast
    obtain ⟨rest, hrest⟩ := List.getLast?_eq_some_iff.1 hlast
    exact hnone rest.reverse (by rw [hrest, List.reverse_append, List.reverse_singleton]; rfl)

private theorem pieces_of_not_mem {cs : List Char} (h : '\n' ∉ cs) : pieces cs = [cs] := by
  induction cs with
  | nil => rfl
  | cons c cs ih =>
      rw [List.mem_cons, not_or] at h
      obtain ⟨piece, rest, hcs, hccs⟩ := pieces_cons_of_ne (Ne.symm h.1) cs
      rw [ih h.2, List.cons.injEq] at hcs
      rw [hccs, ← hcs.1, ← hcs.2]

private theorem pieces_append_break {line : List Char} (rest : List Char) (h : '\n' ∉ line) :
    pieces (line ++ '\n' :: rest) = line :: pieces rest := by
  induction line with
  | nil => exact pieces_break rest
  | cons c cs ih =>
      rw [List.mem_cons, not_or] at h
      obtain ⟨piece, others, hcs, hccs⟩ := pieces_cons_of_ne (Ne.symm h.1) (cs ++ '\n' :: rest)
      rw [ih h.2, List.cons.injEq] at hcs
      rw [List.cons_append, hccs, ← hcs.1, ← hcs.2]

private theorem cutsInto_closeLines (cs : List Char) : CutsInto cs (closeLines (pieces cs)) := by
  induction hlength : cs.length using Nat.strongRecOn generalizing cs with
  | ind n ih =>
      by_cases hbreak : '\n' ∈ cs
      · obtain ⟨line, rest, rfl, hline⟩ := List.eq_append_cons_of_mem hbreak
        have hrest : CutsInto rest (closeLines (pieces rest)) := by
          refine ih rest.length ?_ rest rfl
          simp only [List.length_append, List.length_cons] at hlength
          omega
        rw [pieces_append_break rest hline, closeLines_cons line (piecesBetween_ne_nil _ rest)]
        rcases dropReturn_cases line with h | ⟨hreturn, h⟩
        · have hdropped : '\n' ∉ dropReturn line := by
            intro hmem
            exact hline (h ▸ List.mem_append_left _ hmem)
          have hcut := CutsInto.returnFeed hdropped hrest
          rwa [← List.singleton_append, ← List.append_assoc, ← h] at hcut
        · rw [h]
          exact .feed hline hreturn hrest
      · rw [pieces_of_not_mem hbreak, closeLines]
        cases cs with
        | nil => exact .nil
        | cons c cs => exact .last (List.cons_ne_nil c cs) hbreak

/-- A text is cut into its lines. -/
theorem cutsInto_lines (s : String) : CutsInto s.toList ((lines s).map String.toList) := by
  have htexts : (lines s).map String.toList = closeLines (pieces s.toList) := by
    rw [lines, List.map_map]
    refine Eq.trans (List.map_congr_left ?_) (List.map_id _)
    intro line _
    simp
  rw [htexts]
  exact cutsInto_closeLines s.toList

end SourceChunks.Text
