-- SUMMARY: What a masked text keeps: its rows, and the characters outside the masked ranges at their offsets.
import SourceChunks.Proofs.Text.Lines
import SourceChunks.Template.Mask

/-!
# What a masked text keeps

Masking moves nothing. Rows stay aligned with those of the text, and a character that is not blank
stands in the masked text exactly if it stands at the same offset of the text, outside all masked
ranges. So a line of the masked text holds text exactly if that line of the text does, the masked
ranges apart.
-/

namespace SourceChunks.Template

variable (spans : List Span)

/-- Rows stay where they are. -/
theorem breaksBefore_maskFrom (offset n : Nat) (cs : List Char) :
    Text.breaksBefore n (maskFrom spans offset cs) = Text.breaksBefore n cs := by
  induction cs generalizing offset n with
  | nil => rfl
  | cons c cs ih =>
      rw [maskFrom]
      split
      · next h =>
        rw [Text.breaksBefore_replicate_space, ih, Text.breaksBefore_cons_of_ne cs h.1]
      · rcases Nat.eq_zero_or_pos n with rfl | hn
        · simp
        · rw [List.singleton_append, Text.breaksBefore_cons c _ hn, Text.breaksBefore_cons c cs hn,
            ih]

theorem lineAt_mask (text : String) (offset : Nat) :
    Text.lineAt (mask spans text) offset = Text.lineAt text offset := by
  simp only [Text.lineAt, Text.rowAt, mask, String.toList_ofList]
  rw [breaksBefore_maskFrom]

/-- Spaces hold no text. -/
private theorem not_isCharAt_replicate_space {k offset : Nat} {c : Char}
    (hc : Text.isBlank c = false) : ¬ Text.IsCharAt (List.replicate k ' ') offset c := by
  rintro ⟨before, after, h, -⟩
  have hmem : c ∈ List.replicate k ' ' := by
    rw [h]
    exact List.mem_append_right _ List.mem_cons_self
  rw [(List.mem_replicate.1 hmem).2] at hc
  exact absurd hc (by decide)

/-- The characters that are not blank stay where they are, outside the masked ranges, and those
inside are gone. -/
theorem isCharAt_maskFrom_iff {base offset : Nat} {cs : List Char} {c : Char}
    (hc : Text.isBlank c = false) :
    Text.IsCharAt (maskFrom spans base cs) offset c ↔
      Text.IsCharAt cs offset c ∧ spans.any (·.contains (base + offset)) = false := by
  induction cs generalizing base offset with
  | nil => simp [maskFrom, Text.not_isCharAt_nil]
  | cons d cs ih =>
      have htail : d.utf8Size ≤ offset → (Text.IsCharAt
          (maskFrom spans (base + d.utf8Size) cs) (offset - d.utf8Size) c ↔
          Text.IsCharAt cs (offset - d.utf8Size) c ∧
            spans.any (·.contains (base + offset)) = false) := by
        intro hle
        rw [ih, show base + d.utf8Size + (offset - d.utf8Size) = base + offset by omega]
      rw [maskFrom, Text.isCharAt_cons_iff]
      split
      · next h =>
        rw [Text.isCharAt_append_iff, Text.byteLength_replicate_space]
        constructor
        · rintro (hspace | ⟨hle, hat⟩)
          · exact absurd hspace (not_isCharAt_replicate_space hc)
          · obtain ⟨hat, hout⟩ := (htail hle).1 hat
            exact ⟨.inr ⟨hle, hat⟩, hout⟩
        · rintro ⟨⟨rfl, -⟩ | ⟨hle, hat⟩, hout⟩
          · rw [Nat.add_zero, h.2] at hout
            cases hout
          · exact .inr ⟨hle, (htail hle).2 ⟨hat, hout⟩⟩
      · next h =>
        rw [List.singleton_append, Text.isCharAt_cons_iff]
        constructor
        · rintro (⟨rfl, rfl⟩ | ⟨hle, hat⟩)
          · -- a line feed is kept inside a masked range, but it is blank
            have hbreak : c ≠ '\n' := by
              rintro rfl
              exact absurd hc (by decide)
            refine ⟨.inl ⟨rfl, rfl⟩, ?_⟩
            simpa [hbreak] using h
          · obtain ⟨hat, hout⟩ := (htail hle).1 hat
            exact ⟨.inr ⟨hle, hat⟩, hout⟩
        · rintro ⟨hhead | ⟨hle, hat⟩, hout⟩
          · exact .inl hhead
          · exact .inr ⟨hle, (htail hle).2 ⟨hat, hout⟩⟩

/-- A character that is not blank stands in a masked text if it stands in the text, at the same
offset and outside the masked ranges. -/
theorem isCharAt_mask_iff {text : String} {offset : Nat} {c : Char} (hc : Text.isBlank c = false) :
    Text.IsCharAt (mask spans text).toList offset c ↔
      Text.IsCharAt text.toList offset c ∧ ∀ span ∈ spans, span.contains offset = false := by
  rw [mask, String.toList_ofList, isCharAt_maskFrom_iff spans hc, Nat.zero_add]
  simp

/-- A line of a masked text holds text if the line of the text does outside the masked ranges. -/
theorem holdsText_mask_iff {text : String} {line : Nat} :
    Text.HoldsText (mask spans text) line ↔
      ∃ offset c, Text.IsCharAt text.toList offset c ∧ Text.isBlank c = false ∧
        (∀ span ∈ spans, span.contains offset = false) ∧ Text.lineAt text offset = line := by
  refine exists_congr fun offset => exists_congr fun c => ?_
  rw [lineAt_mask]
  constructor
  · rintro ⟨hat, hc, hline⟩
    obtain ⟨hat, hout⟩ := (isCharAt_mask_iff spans hc).1 hat
    exact ⟨hat, hc, hout, hline⟩
  · rintro ⟨hat, hc, hout, hline⟩
    exact ⟨(isCharAt_mask_iff spans hc).2 ⟨hat, hout⟩, hc, hline⟩

end SourceChunks.Template
