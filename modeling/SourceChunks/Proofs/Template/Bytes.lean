-- SUMMARY: Masking seen on UTF-8 bytes: what each byte becomes, that the bytes stay a text, and masking twice.
import SourceChunks.Proofs.Template.Mask
import SourceChunks.Proofs.Tree

/-!
# Masked bytes

A text can be masked by overwriting its UTF-8 bytes one by one, which asks nothing of the ranges and
may leave bytes that are no text. If the ranges end at boundaries of characters, no character is
overwritten in part, and what is left are the bytes of the masked text. Each byte then depends on
its own place only, so masking a text twice is masking it once with both lists of ranges.
-/

namespace SourceChunks

/-! ## Bytes of a text -/

namespace Text

/-- The UTF-8 bytes of a text. -/
def bytes (s : String) : List UInt8 :=
  s.toByteArray.data.toList

/-- The byte of a line feed. -/
def feedByte : UInt8 := 10

/-- The byte of a space. -/
def spaceByte : UInt8 := 32

theorem bytes_ofList (cs : List Char) :
    bytes (.ofList cs) = cs.flatMap String.utf8EncodeChar := by
  simp [bytes, List.utf8Encode]

theorem bytes_eq (s : String) : bytes s = s.toList.flatMap String.utf8EncodeChar := by
  rw [← bytes_ofList, String.ofList_toList]

theorem bytes_inj {s t : String} (h : bytes s = bytes t) : s = t := by
  rw [← String.toByteArray_inj]
  exact ByteArray.ext (Array.toList_inj.1 h)

theorem length_flatMap_utf8EncodeChar (cs : List Char) :
    (cs.flatMap String.utf8EncodeChar).length = byteLength cs := by
  induction cs with
  | nil => rfl
  | cons c cs ih => simp [ih]

theorem length_bytes (s : String) : (bytes s).length = byteLength s.toList := by
  rw [bytes_eq, length_flatMap_utf8EncodeChar]

/-- The byte of a short character is its code, and all bytes of a longer one are larger. -/
theorem toNat_of_mem_utf8EncodeChar {c : Char} {byte : UInt8}
    (h : byte ∈ String.utf8EncodeChar c) : byte.toNat = c.toNat ∨ 128 ≤ byte.toNat := by
  have hcode : c.val.toNat = c.toNat := rfl
  unfold String.utf8EncodeChar at h
  dsimp only at h
  rw [hcode] at h
  split at h
  · next hshort =>
    obtain rfl := List.mem_singleton.1 h
    rw [UInt8.toNat_ofNat']
    omega
  · right
    split at h
    · simp only [List.mem_cons, List.not_mem_nil, or_false] at h
      rcases h with rfl | rfl <;> rw [UInt8.toNat_ofNat'] <;> omega
    · split at h
      · simp only [List.mem_cons, List.not_mem_nil, or_false] at h
        rcases h with rfl | rfl | rfl <;> rw [UInt8.toNat_ofNat'] <;> omega
      · simp only [List.mem_cons, List.not_mem_nil, or_false] at h
        rcases h with rfl | rfl | rfl | rfl <;> rw [UInt8.toNat_ofNat'] <;> omega

/-- Only a line feed has the byte of a line feed. -/
theorem ne_feedByte_of_mem_utf8EncodeChar {c : Char} (hc : c ≠ '\n') {byte : UInt8}
    (h : byte ∈ String.utf8EncodeChar c) : byte ≠ feedByte := by
  rintro rfl
  rcases toNat_of_mem_utf8EncodeChar h with hcode | hlarge
  · exact hc (Char.toNat_inj.1 hcode.symm)
  · exact absurd hlarge (by decide)

/-! ## Boundaries of characters -/

section Boundary

variable {n : Nat} {c : Char} {cs : List Char}

theorem isBoundary_zero (cs : List Char) : isBoundary 0 cs = true := by
  unfold isBoundary
  rfl

/-- A boundary is not inside a character. -/
theorem eq_zero_or_le_of_isBoundary (h : isBoundary n (c :: cs) = true) :
    n = 0 ∨ c.utf8Size ≤ n := by
  cases n with
  | zero => exact .inl rfl
  | succ n =>
      simp only [isBoundary, Bool.and_eq_true, decide_eq_true_eq] at h
      exact .inr h.1

theorem isBoundary_tail (h : isBoundary n (c :: cs) = true) :
    isBoundary (n - c.utf8Size) cs = true := by
  cases n with
  | zero =>
      rw [Nat.zero_sub]
      exact isBoundary_zero cs
  | succ n =>
      simp only [isBoundary, Bool.and_eq_true, decide_eq_true_eq] at h
      exact h.2

theorem isBoundary_byteLength_add (xs ys : List Char) (n : Nat) :
    isBoundary (byteLength xs + n) (xs ++ ys) = isBoundary n ys := by
  induction xs with
  | nil => simp
  | cons c xs ih =>
      have hpos := c.utf8Size_pos
      obtain ⟨k, hk⟩ : ∃ k, byteLength (c :: xs) + n = k + 1 :=
        Nat.exists_eq_add_one.2 (by rw [byteLength_cons]; omega)
      rw [List.cons_append, hk, isBoundary, ← hk, byteLength_cons,
        show c.utf8Size + byteLength xs + n - c.utf8Size = byteLength xs + n by omega, ih]
      simp only [Bool.and_eq_right_iff_imp, decide_eq_true_eq]
      omega

end Boundary

end Text

namespace Template

open Text (feedByte spaceByte)

/-! ## Bytes of a masked text -/

/-- Both ends of a range are boundaries of the characters of a text that begins at a byte offset. -/
def Span.AlignedFrom (base : Nat) (cs : List Char) (span : Span) : Prop :=
  Text.isBoundary (span.start - base) cs = true ∧ Text.isBoundary (span.stop - base) cs = true

/-- What masking makes of the character at an offset. -/
def maskedChar (spans : List Span) (offset : Nat) (c : Char) : List Char :=
  if c ≠ '\n' ∧ spans.any (·.contains offset) then List.replicate c.utf8Size ' ' else [c]

theorem maskFrom_cons (spans : List Span) (offset : Nat) (c : Char) (cs : List Char) :
    maskFrom spans offset (c :: cs) =
      maskedChar spans offset c ++ maskFrom spans (offset + c.utf8Size) cs := rfl

theorem byteLength_maskedChar (spans : List Span) (offset : Nat) (c : Char) :
    Text.byteLength (maskedChar spans offset c) = c.utf8Size := by
  unfold maskedChar
  split <;> simp

/-- What masking makes of the byte at an offset. -/
def maskedByte (spans : List Span) (offset : Nat) (byte : UInt8) : UInt8 :=
  if byte ≠ feedByte ∧ spans.any (·.contains offset) = true then spaceByte else byte

section Aligned

variable {spans : List Span} {span : Span} {base : Nat} {c : Char} {cs : List Char}

theorem Span.AlignedFrom.tail (h : span.AlignedFrom base (c :: cs)) :
    span.AlignedFrom (base + c.utf8Size) cs := by
  unfold AlignedFrom
  rw [← Nat.sub_sub, ← Nat.sub_sub]
  exact ⟨Text.isBoundary_tail h.1, Text.isBoundary_tail h.2⟩

/-- A range has all bytes of a character or none. -/
theorem Span.AlignedFrom.contains_add (h : span.AlignedFrom base (c :: cs)) {i : Nat}
    (hi : i < c.utf8Size) : span.contains (base + i) = span.contains base := by
  have hstart := Text.eq_zero_or_le_of_isBoundary h.1
  have hstop := Text.eq_zero_or_le_of_isBoundary h.2
  rw [Bool.eq_iff_iff]
  simp only [contains, Bool.and_eq_true, decide_eq_true_eq]
  omega

theorem any_contains_add (h : ∀ span ∈ spans, span.AlignedFrom base (c :: cs)) {i : Nat}
    (hi : i < c.utf8Size) :
    spans.any (·.contains (base + i)) = spans.any (·.contains base) := by
  rw [Bool.eq_iff_iff, List.any_eq_true, List.any_eq_true]
  refine exists_congr fun span => and_congr_right fun hspan => ?_
  rw [(h span hspan).contains_add hi]

/-- The bytes of a character other than a line feed are all masked or all kept. -/
theorem mapIdx_maskedByte_utf8EncodeChar (h : ∀ span ∈ spans, span.AlignedFrom base (c :: cs))
    (hc : c ≠ '\n') :
    ((String.utf8EncodeChar c).mapIdx fun i => maskedByte spans (base + i)) =
      (String.utf8EncodeChar c).map fun byte =>
        if spans.any (·.contains base) = true then spaceByte else byte := by
  apply List.ext_getElem
  · simp
  · intro i hi hi'
    rw [List.getElem_mapIdx, List.getElem_map, maskedByte]
    have hbyte := Text.ne_feedByte_of_mem_utf8EncodeChar hc (List.getElem_mem (by simpa using hi'))
    rw [any_contains_add h (by simpa using hi')]
    simp [hbyte]

/-- A character is masked byte by byte. -/
theorem flatMap_maskedChar (h : ∀ span ∈ spans, span.AlignedFrom base (c :: cs)) :
    (maskedChar spans base c).flatMap String.utf8EncodeChar =
      (String.utf8EncodeChar c).mapIdx fun i => maskedByte spans (base + i) := by
  by_cases hc : c = '\n'
  · subst hc
    rfl
  · rw [mapIdx_maskedByte_utf8EncodeChar h hc, maskedChar]
    split
    · next hmasked =>
      have hspace : String.utf8EncodeChar ' ' = [spaceByte] := rfl
      simp [hmasked.2, List.flatMap_replicate, hspace, List.map_const']
    · next hkept =>
      have hout : spans.any (·.contains base) = false := by simpa [hc] using hkept
      simp [hout]

theorem flatMap_maskFrom (h : ∀ span ∈ spans, span.AlignedFrom base cs) :
    (maskFrom spans base cs).flatMap String.utf8EncodeChar =
      (cs.flatMap String.utf8EncodeChar).mapIdx fun i => maskedByte spans (base + i) := by
  induction cs generalizing base with
  | nil => rfl
  | cons c cs ih =>
      have hrest := ih fun span hspan => (h span hspan).tail
      rw [maskFrom_cons, List.flatMap_append, flatMap_maskedChar h, hrest, List.flatMap_cons,
        List.mapIdx_append, String.length_utf8EncodeChar]
      simp only [Nat.add_assoc, Nat.add_comm c.utf8Size]

end Aligned

section Mask

variable {spans others : List Span} {text : String}

/-- The bytes of a masked text, each told by its offset. -/
theorem bytes_mask (h : ∀ span ∈ spans, span.AlignedFrom 0 text.toList) :
    Text.bytes (mask spans text) = (Text.bytes text).mapIdx (maskedByte spans) := by
  rw [mask, Text.bytes_ofList, flatMap_maskFrom h, Text.bytes_eq]
  simp only [Nat.zero_add]

/-- A boundary of characters stays one: what stands for a character has as many bytes. -/
theorem isBoundary_maskFrom (spans : List Span) (base : Nat) {n : Nat} {cs : List Char}
    (h : Text.isBoundary n cs = true) : Text.isBoundary n (maskFrom spans base cs) = true := by
  induction cs generalizing base n with
  | nil => exact h
  | cons c cs ih =>
      rcases Text.eq_zero_or_le_of_isBoundary h with rfl | hle
      · exact Text.isBoundary_zero _
      · have hrest := ih (base + c.utf8Size) (Text.isBoundary_tail h)
        rwa [← Text.isBoundary_byteLength_add (maskedChar spans base c), byteLength_maskedChar,
          Nat.add_sub_cancel' hle, ← maskFrom_cons] at hrest

theorem isBoundary_mask (spans : List Span) {n : Nat} (h : Text.isBoundary n text.toList = true) :
    Text.isBoundary n (mask spans text).toList = true := by
  rw [mask, String.toList_ofList]
  exact isBoundary_maskFrom spans 0 h

/-! ## Masking twice -/

theorem maskedByte_maskedByte (xs ys : List Span) (offset : Nat) (byte : UInt8) :
    maskedByte ys offset (maskedByte xs offset byte) = maskedByte (xs ++ ys) offset byte := by
  unfold maskedByte
  rw [List.any_append]
  by_cases hbyte : byte = feedByte
  · simp [hbyte]
  · cases xs.any (·.contains offset) with
    | true => simp [hbyte]
    | false => simp

theorem maskedByte_append_comm (xs ys : List Span) :
    maskedByte (xs ++ ys) = maskedByte (ys ++ xs) := by
  funext offset byte
  simp only [maskedByte, List.any_append, Bool.or_comm]

/-- Masking with one list of ranges and then with another is masking with both. -/
theorem mask_mask (hspans : ∀ span ∈ spans, span.AlignedFrom 0 text.toList)
    (hothers : ∀ span ∈ others, span.AlignedFrom 0 text.toList) :
    mask others (mask spans text) = mask (spans ++ others) text := by
  have hmasked : ∀ span ∈ others, span.AlignedFrom 0 (mask spans text).toList := by
    intro span hspan
    obtain ⟨hstart, hstop⟩ := hothers span hspan
    exact ⟨isBoundary_mask spans hstart, isBoundary_mask spans hstop⟩
  have hboth : ∀ span ∈ spans ++ others, span.AlignedFrom 0 text.toList :=
    List.forall_mem_append.2 ⟨hspans, hothers⟩
  apply Text.bytes_inj
  rw [bytes_mask hmasked, bytes_mask hspans, bytes_mask hboth, List.mapIdx_mapIdx]
  congr 1
  funext offset byte
  exact maskedByte_maskedByte spans others offset byte

theorem mask_append_comm (hspans : ∀ span ∈ spans, span.AlignedFrom 0 text.toList)
    (hothers : ∀ span ∈ others, span.AlignedFrom 0 text.toList) :
    mask (spans ++ others) text = mask (others ++ spans) text := by
  apply Text.bytes_inj
  rw [bytes_mask (List.forall_mem_append.2 ⟨hspans, hothers⟩),
    bytes_mask (List.forall_mem_append.2 ⟨hothers, hspans⟩), maskedByte_append_comm]

end Mask

/-! ## Overwriting bytes -/

/-- Overwrites the bytes of a range with spaces, line feeds apart. A range that does not lie in the
bytes changes nothing. -/
def overwrite (bytes : List UInt8) (span : Span) : List UInt8 :=
  if span.start ≤ span.stop ∧ span.stop ≤ bytes.length then
    bytes.take span.start
      ++ ((bytes.take span.stop).drop span.start).map
          (fun byte => if byte = feedByte then byte else spaceByte)
      ++ bytes.drop span.stop
  else bytes

/-- Overwrites the bytes of one range after the other. -/
def overwriteAll (spans : List Span) (bytes : List UInt8) : List UInt8 :=
  spans.foldl overwrite bytes

theorem maskedByte_of_outside {spans : List Span} {offset : Nat}
    (h : spans.any (·.contains offset) = false) : maskedByte spans offset = id := by
  funext byte
  simp [maskedByte, h]

theorem maskedByte_of_contains {span : Span} {offset : Nat} (h : span.contains offset = true) :
    maskedByte [span] offset = fun byte => if byte = feedByte then byte else spaceByte := by
  funext byte
  simp [maskedByte, h]

theorem overwrite_eq {bytes : List UInt8} {span : Span} (h : span.stop ≤ bytes.length) :
    overwrite bytes span = bytes.mapIdx (maskedByte [span]) := by
  symm
  rw [List.mapIdx_eq_iff]
  intro i
  cases hcontains : span.contains i with
  | true =>
      obtain ⟨hstart, hstop⟩ : span.start ≤ i ∧ i < span.stop := by
        simpa [Span.contains] using hcontains
      have hbefore : (bytes.take span.start).length = span.start :=
        List.length_take_of_le (by omega)
      rw [maskedByte_of_contains hcontains, overwrite, if_pos ⟨by omega, h⟩, List.append_assoc,
        List.getElem?_append_right (by omega), List.getElem?_append_left (by simp; omega), hbefore,
        List.getElem?_map, List.getElem?_drop, Nat.add_sub_cancel' hstart,
        List.getElem?_take_of_lt hstop]
  | false =>
      rw [maskedByte_of_outside (by simp [hcontains]), Option.map_id, id, overwrite]
      split
      · next hin =>
        have hbefore : (bytes.take span.start).length = span.start :=
          List.length_take_of_le (by omega)
        have hout : i < span.start ∨ span.stop ≤ i := by
          simp [Span.contains] at hcontains
          omega
        rcases hout with hout | hout
        · rw [List.append_assoc, List.getElem?_append_left (by omega),
            List.getElem?_take_of_lt hout]
        · rw [List.getElem?_append_right (by simp; omega), List.getElem?_drop]
          congr 1
          simp
          omega
      · rfl

theorem overwriteAll_eq {spans : List Span} {bytes : List UInt8}
    (h : ∀ span ∈ spans, span.stop ≤ bytes.length) :
    overwriteAll spans bytes = bytes.mapIdx (maskedByte spans) := by
  induction spans generalizing bytes with
  | nil =>
      symm
      rw [List.mapIdx_eq_iff]
      intro i
      rw [maskedByte_of_outside rfl, Option.map_id]
      rfl
  | cons span spans ih =>
      rw [List.forall_mem_cons] at h
      have hrest : ∀ other ∈ spans, other.stop ≤ (bytes.mapIdx (maskedByte [span])).length := by
        simpa using h.2
      have hstep : overwriteAll (span :: spans) bytes = overwriteAll spans (overwrite bytes span) :=
        rfl
      rw [hstep, overwrite_eq h.1, ih hrest, List.mapIdx_mapIdx]
      congr 1
      funext offset byte
      exact maskedByte_maskedByte [span] spans offset byte

/-- Overwriting the bytes of ranges that end at boundaries of characters leaves the bytes of the
masked text, and so a text. -/
theorem fromUTF8?_overwriteAll {spans : List Span} {text : String}
    (h : ∀ span ∈ spans, span.AlignedFrom 0 text.toList) :
    String.fromUTF8? (overwriteAll spans (Text.bytes text)).toByteArray =
      some (mask spans text) := by
  have hinside : ∀ span ∈ spans, span.stop ≤ (Text.bytes text).length := by
    intro span hspan
    rw [Text.length_bytes]
    exact Text.le_byteLength_of_isBoundary (h span hspan).2
  have hbytes : (overwriteAll spans (Text.bytes text)).toByteArray =
      (mask spans text).toByteArray := by
    rw [overwriteAll_eq hinside, ← bytes_mask h]
    exact ByteArray.ext (by simp [Text.bytes])
  rw [hbytes, String.fromUTF8?, dif_pos (mask spans text).isValidUTF8]
  rfl

/-- Masking with ranges that end at boundaries of characters, whatever their order and overlap. The
masked text has as many bytes; a byte inside a range becomes a space unless it is a line feed, and
all others stay. It is the text that is left when the ranges are overwritten byte by byte.
Boundaries of characters stay boundaries, so masking with two lists of ranges one after the other,
in whatever order, is masking with both, and every offset stays on its line. -/
theorem mask_overwrites {spans : List Span} {text : String}
    (h : ∀ span ∈ spans, Text.isBoundary span.start text.toList = true ∧
      Text.isBoundary span.stop text.toList = true) :
    (Text.bytes (mask spans text)).length = (Text.bytes text).length ∧
    (∀ offset byte, (Text.bytes text)[offset]? = some byte →
      (byte = feedByte ∨ (∀ span ∈ spans, span.contains offset = false) →
        (Text.bytes (mask spans text))[offset]? = some byte) ∧
      (byte ≠ feedByte → (∃ span ∈ spans, span.contains offset = true) →
        (Text.bytes (mask spans text))[offset]? = some spaceByte)) ∧
    String.fromUTF8? (overwriteAll spans (Text.bytes text)).toByteArray =
      some (mask spans text) ∧
    (∀ offset, Text.isBoundary offset text.toList = true →
      Text.isBoundary offset (mask spans text).toList = true) ∧
    (∀ others : List Span,
      (∀ span ∈ others, Text.isBoundary span.start text.toList = true ∧
        Text.isBoundary span.stop text.toList = true) →
      mask others (mask spans text) = mask (spans ++ others) text ∧
      mask spans (mask others text) = mask (spans ++ others) text) ∧
    ∀ offset, Text.lineAt (mask spans text) offset = Text.lineAt text offset := by
  have hbytes : Text.bytes (mask spans text) = (Text.bytes text).mapIdx (maskedByte spans) :=
    bytes_mask h
  refine ⟨by rw [hbytes, List.length_mapIdx], ?_, fromUTF8?_overwriteAll h,
    fun _ => isBoundary_mask spans, ?_, lineAt_mask spans text⟩
  · intro offset byte hbyte
    rw [hbytes, List.getElem?_mapIdx, hbyte, Option.map_some]
    constructor
    · intro hkept
      rw [maskedByte, if_neg]
      rintro ⟨hfeed, hinside⟩
      obtain ⟨span, hspan, hcontains⟩ := List.any_eq_true.1 hinside
      rcases hkept with hkept | hkept
      · exact hfeed hkept
      · rw [hkept span hspan] at hcontains
        cases hcontains
    · intro hfeed hinside
      rw [maskedByte, if_pos ⟨hfeed, List.any_eq_true.2 hinside⟩]
  · intro others hothers
    refine ⟨mask_mask h hothers, ?_⟩
    rw [mask_mask hothers h, mask_append_comm hothers h]

/-- Two ranges that overlap and come in the wrong order, over a character of two bytes and a line
feed, and a third range behind them. -/
theorem mask_overwrites_overlapping :
    (∀ span ∈ [(⟨3, 5⟩ : Span), ⟨0, 4⟩], Text.isBoundary span.start "é<\n>x".toList = true ∧
      Text.isBoundary span.stop "é<\n>x".toList = true) ∧
    mask [⟨3, 5⟩, ⟨0, 4⟩] "é<\n>x" = "   \n x" ∧
    (Text.bytes (mask [⟨3, 5⟩, ⟨0, 4⟩] "é<\n>x")).length = 6 ∧
    String.fromUTF8? (overwriteAll [⟨3, 5⟩, ⟨0, 4⟩] (Text.bytes "é<\n>x")).toByteArray =
      some "   \n x" ∧
    mask [⟨5, 6⟩] (mask [⟨3, 5⟩, ⟨0, 4⟩] "é<\n>x") = mask [⟨3, 5⟩, ⟨0, 4⟩, ⟨5, 6⟩] "é<\n>x" := by
  have hspans : ∀ span ∈ [(⟨3, 5⟩ : Span), ⟨0, 4⟩],
      Text.isBoundary span.start "é<\n>x".toList = true ∧
        Text.isBoundary span.stop "é<\n>x".toList = true := by decide
  have hthird : ∀ span ∈ [(⟨5, 6⟩ : Span)],
      Text.isBoundary span.start "é<\n>x".toList = true ∧
        Text.isBoundary span.stop "é<\n>x".toList = true := by decide
  have hmasked : mask [⟨3, 5⟩, ⟨0, 4⟩] "é<\n>x" = "   \n x" := by decide
  obtain ⟨hlength, -, htext, -, htwice, -⟩ := mask_overwrites hspans
  exact ⟨hspans, hmasked, hlength.trans (by decide), htext.trans (congrArg some hmasked),
    (htwice _ hthird).1⟩

end Template

end SourceChunks
