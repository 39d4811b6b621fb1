-- SUMMARY: Where blocks stand: from an opening tag to a closing tag behind it, on lines of the template.
import SourceChunks.Proofs.Text.Lines
import SourceChunks.Template.Block

/-!
# Ranges of blocks

Tags end in a closing brace. So the byte behind a tag is on the line of its last character, and a
block, which reaches from an opening tag to the end of a closing tag behind it, lies on the lines of
its template.
-/

namespace SourceChunks.Template

/-! ## Forms of tags -/

theorem afterHyphen_suffix (cs : List Char) : afterHyphen cs <:+ cs := by
  unfold afterHyphen
  split
  · exact List.suffix_cons _ _
  · exact List.suffix_refl _

theorem suffix_of_afterOpening? {cs rest : List Char} (h : afterOpening? cs = some rest) :
    rest <:+ cs := by
  unfold afterOpening? at h
  split at h
  · next inner =>
    obtain rfl := Option.some.inj h
    have hdrop : (afterHyphen inner).dropWhile Text.isBlank <:+ inner :=
      (List.dropWhile_suffix _).trans (afterHyphen_suffix inner)
    exact hdrop.trans ((List.suffix_cons _ _).trans (List.suffix_cons _ _))
  · cases h

theorem suffix_of_isPrefixOf? {word cs rest : List Char} (h : word.isPrefixOf? cs = some rest) :
    rest <:+ cs := by
  induction word generalizing cs with
  | nil =>
      obtain rfl : cs = rest := Option.some.inj h
      exact List.suffix_refl _
  | cons c word ih =>
      cases cs with
      | nil => cases h
      | cons d cs =>
          change (if c == d then word.isPrefixOf? cs else none) = some rest at h
          split at h
          · exact (ih h).trans (List.suffix_cons _ _)
          · cases h

theorem suffix_of_afterClosing? {cs rest : List Char} (h : afterClosing? cs = some rest) :
    '\x7d' :: rest <:+ cs := by
  unfold afterClosing? at h
  split at h
  · next inner hinner =>
    obtain rfl := Option.some.inj h
    have hdrop : '%' :: '\x7d' :: inner <:+ cs := by
      rw [← hinner]
      exact (afterHyphen_suffix _).trans (List.dropWhile_suffix _)
    exact (List.suffix_cons _ _).trans hdrop
  · cases h

/-- A tag ends in a closing brace. -/
theorem suffix_of_afterTag? {word : String} {cs rest : List Char}
    (h : afterTag? word cs = some rest) : '\x7d' :: rest <:+ cs := by
  obtain ⟨inner, hinner, h⟩ := Option.bind_eq_some_iff.1 h
  obtain ⟨behind, hbehind, h⟩ := Option.bind_eq_some_iff.1 h
  have hclosing := suffix_of_afterClosing? h
  exact (hclosing.trans (suffix_of_isPrefixOf? hbehind)).trans (suffix_of_afterOpening? hinner)

/-- Whatever has a form ends in a closing brace. -/
def EndsInBrace {α : Type} (form : List Char → Option (α × List Char)) : Prop :=
  ∀ cs value rest, form cs = some (value, rest) → '\x7d' :: rest <:+ cs

/-- A tag whose word is made from that of a kind of block ends in a closing brace. -/
theorem endsInBrace_blockWords (wordOf : String → String) :
    EndsInBrace fun cs => blockWords.findSome? fun (kind, word) =>
      (afterTag? (wordOf word) cs).map (kind, ·) := by
  intro cs kind rest h
  obtain ⟨⟨_, word⟩, -, h⟩ := List.exists_of_findSome?_eq_some h
  obtain ⟨behind, hbehind, hrest⟩ := Option.map_eq_some_iff.1 h
  obtain ⟨-, rfl⟩ := Prod.mk.inj hrest
  exact suffix_of_afterTag? hbehind

theorem endsInBrace_opening? : EndsInBrace opening? :=
  endsInBrace_blockWords fun word => word

theorem endsInBrace_closing? : EndsInBrace closing? :=
  endsInBrace_blockWords ("end" ++ ·)

/-! ## Occurrences -/

/-- An occurrence found from an offset on ends behind a closing brace of the text that was read. -/
theorem exists_brace_of_mem_occurrencesFrom {α : Type} {form : List Char → Option (α × List Char)}
    (hform : EndsInBrace form) {offset skip : Nat} {cs : List Char} {found : Occurrence α}
    (h : found ∈ occurrencesFrom form offset skip cs) :
    ∃ last, Text.IsCharAt cs last '\x7d' ∧ found.span.start ≤ offset + last ∧
      found.span.stop = offset + last + 1 := by
  induction cs generalizing offset skip with
  | nil => simp [occurrencesFrom] at h
  | cons c cs ih =>
      have hlater : ∀ {skip}, found ∈ occurrencesFrom form (offset + c.utf8Size) skip cs →
          ∃ last, Text.IsCharAt (c :: cs) last '\x7d' ∧ found.span.start ≤ offset + last ∧
            found.span.stop = offset + last + 1 := by
        intro skip hfound
        obtain ⟨last, hat, hstart, hstop⟩ := ih hfound
        refine ⟨c.utf8Size + last, ?_, by omega, by omega⟩
        exact Text.isCharAt_cons_iff.2 (.inr ⟨by omega, by rwa [Nat.add_sub_cancel_left]⟩)
      rw [occurrencesFrom] at h
      split at h
      · exact hlater h
      · split at h
        · next value rest hmatch =>
          rcases List.mem_cons.1 h with rfl | h
          · obtain ⟨inner, hinner⟩ := hform _ _ _ hmatch
            have htake : (c :: cs).take ((c :: cs).length - rest.length) = inner ++ ['\x7d'] := by
              rw [← hinner, List.length_append, List.length_cons,
                show inner.length + (rest.length + 1) - rest.length = inner.length + 1 by omega,
                List.take_length_add_append]
              rfl
            refine ⟨Text.byteLength inner, ⟨inner, rest, hinner.symm, rfl⟩,
              Nat.le_add_right _ _, ?_⟩
            rw [htake, Text.byteLength_append, Nat.add_assoc]
            rfl
          · exact hlater h
        · exact hlater h

theorem exists_brace_of_mem_occurrences {α : Type} {form : List Char → Option (α × List Char)}
    (hform : EndsInBrace form) {text : String} {found : Occurrence α}
    (h : found ∈ occurrences form text) :
    ∃ last, Text.IsCharAt text.toList last '\x7d' ∧ found.span.start ≤ last ∧
      found.span.stop = last + 1 := by
  obtain ⟨last, hat, hstart, hstop⟩ := exists_brace_of_mem_occurrencesFrom hform h
  exact ⟨last, hat, by omega, by omega⟩

/-! ## Blocks -/

/-- A block reaches from an opening tag to a closing tag behind it. -/
theorem exists_tags_of_mem_pairFrom {text : String} {closers openers : List (Occurrence BlockKind)}
    {offset : Nat} {block : Block} (h : block ∈ pairFrom text closers offset openers) :
    ∃ opener ∈ openers, ∃ closer ∈ closers, opener.span.stop ≤ closer.span.start ∧
      block = .between text opener closer := by
  induction openers generalizing offset with
  | nil => simp [pairFrom] at h
  | cons opener rest ih =>
      have hlater : ∀ {offset}, block ∈ pairFrom text closers offset rest →
          ∃ found ∈ opener :: rest, ∃ closer ∈ closers, found.span.stop ≤ closer.span.start ∧
            block = .between text found closer := by
        intro offset hmem
        obtain ⟨found, hfound, htags⟩ := ih hmem
        exact ⟨found, List.mem_cons_of_mem opener hfound, htags⟩
      rw [pairFrom] at h
      split at h
      · exact hlater h
      · split at h
        · exact hlater h
        · next closer hcloser =>
          split at h
          · rcases List.mem_cons.1 h with hblock | h
            · have hbehind := List.find?_some hcloser
              exact ⟨opener, List.mem_cons_self, closer, List.mem_of_find?_eq_some hcloser,
                by simpa using hbehind, hblock⟩
            · exact hlater h
          · exact hlater h

/-- A block has text, ends behind a closing brace, and has the lines of its two ends. -/
theorem span_of_mem_blocks {text : String} {block : Block} (h : block ∈ blocks text) :
    ∃ last, Text.IsCharAt text.toList last '\x7d' ∧ block.span.start ≤ last ∧
      block.span.stop = last + 1 ∧
      block.lines = ⟨Text.lineAt text block.span.start, Text.lineAt text last⟩ := by
  obtain ⟨opener, hopener, closer, hcloser, hbehind, rfl⟩ := exists_tags_of_mem_pairFrom h
  obtain ⟨first, -, hstart, hstop⟩ :=
    exists_brace_of_mem_occurrences endsInBrace_opening? (List.mem_filter.1 hopener).1
  obtain ⟨last, hat, hle, hlast⟩ :=
    exists_brace_of_mem_occurrences endsInBrace_closing? (List.mem_filter.1 hcloser).1
  refine ⟨last, hat, ?_, hlast, ?_⟩
  · change opener.span.start ≤ last
    omega
  · have hrow : Text.rowAt text (last + 1) = Text.rowAt text last :=
      Text.breaksBefore_add_utf8Size hat (by decide)
    simp only [Block.between, hlast, Text.lineAt, hrow]

/-- A block lies on the lines of its template. -/
theorem bounds_of_mem_blocks {text : String} {block : Block} (h : block ∈ blocks text) :
    1 ≤ block.lines.first ∧ block.lines.first ≤ block.lines.last ∧
      block.lines.last ≤ (Text.lines text).length := by
  obtain ⟨last, hat, hle, -, hlines⟩ := span_of_mem_blocks h
  rw [hlines]
  refine ⟨Nat.le_add_left 1 _, ?_, ?_⟩
  · exact Text.lineAt_mono text hle
  · exact Text.rowAt_lt_length_lines hat.lt_byteLength

/-- A block touches a line: one of its bytes stands on it. -/
def Block.Touches (text : String) (block : Block) (line : Nat) : Prop :=
  ∃ offset, block.span.contains offset = true ∧ Text.lineAt text offset = line

theorem contains_of_touches {text : String} {block : Block} (h : block ∈ blocks text) {line : Nat}
    (htouch : block.Touches text line) : block.lines.contains line = true := by
  obtain ⟨offset, hoffset, rfl⟩ := htouch
  obtain ⟨last, -, -, hstop, hlines⟩ := span_of_mem_blocks h
  simp only [Span.contains, Bool.and_eq_true, decide_eq_true_eq] at hoffset
  rw [hlines]
  simp only [LineRange.contains, Bool.and_eq_true, decide_eq_true_eq]
  exact ⟨Text.lineAt_mono text hoffset.1, Text.lineAt_mono text (by omega)⟩

end SourceChunks.Template
