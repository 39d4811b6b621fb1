-- SUMMARY: Options from settings: valid whatever the settings say, and with the numbers that they write.
import Mathlib.Algebra.Group.Nat.Defs
import SourceChunks.Options
import SourceChunks.Proofs.Text.Printed

/-!
# Options from settings

Settings are texts that anyone may have written, so reading them never fails: what cannot be read
leaves a default, and what is out of its limits is brought back. The options that come out are valid
in any case. Where the settings write numbers, the options have these numbers as far as the limits
allow, so valid options of moderate size can be printed and read back.
-/

namespace SourceChunks.Options

/-! ## Valid options -/

/-- Valid options are those whose windows share fewer lines than they have. -/
theorem validate_eq_ok_iff {o valid : Options} :
    o.validate = .ok valid ↔ o.chunkOverlap < o.chunkSize ∧ valid = o := by
  unfold validate
  split
  · next hzero => simp [hzero]
  · split
    · next hshared => simp [Nat.not_lt.2 hshared]
    · next hshared => simp [Nat.lt_of_not_le hshared, eq_comm]

/-- The two numbers of the options, each from its own setting but for the overlap that does not fit
the size. -/
theorem ofSettings_eq (size overlap : Option String) :
    ofSettings size overlap =
      ⟨max 1 (min (settingOr 75 size) 10000),
        if settingOr 10 overlap < max 1 (min (settingOr 75 size) 10000) then settingOr 10 overlap
        else 0⟩ := by
  have hsize : min (max (settingOr 75 size) 1) maxChunkSize =
      max 1 (min (settingOr 75 size) 10000) := by
    unfold maxChunkSize
    omega
  unfold ofSettings
  dsimp only
  rw [hsize]
  split
  · next valid hvalid =>
    obtain ⟨hfits, rfl⟩ := validate_eq_ok_iff.1 hvalid
    rw [if_pos hfits]
  · next fault hfault =>
    rw [if_neg]
    intro hfits
    rw [validate_eq_ok_iff.2 ⟨hfits, rfl⟩] at hfault
    cases hfault

theorem validate_ofSettings (size overlap : Option String) :
    (ofSettings size overlap).validate = .ok (ofSettings size overlap) := by
  refine validate_eq_ok_iff.2 ⟨?_, rfl⟩
  rw [ofSettings_eq]
  dsimp only
  split
  · next hfits => exact hfits
  · omega

/-! ## Numbers in settings -/

/-- The digits of a number, with zeros in front of them. -/
def numeral (zeros n : Nat) : List Char :=
  List.replicate zeros '0' ++ Nat.toDigits 10 n

/-- A setting writes a number in decimal, with zeros in front and white space around it as one
likes. -/
def Writes (setting : String) (n : Nat) : Prop :=
  ∃ (before behind : List Char) (zeros : Nat), (∀ c ∈ before, Text.isBlank c = true) ∧
    (∀ c ∈ behind, Text.isBlank c = true) ∧ setting.toList = before ++ (numeral zeros n ++ behind)

theorem writes_toString (n : Nat) : Writes (toString n) n :=
  ⟨[], [], 0, by simp, by simp, by simp [numeral]⟩

section Numeral

variable (zeros n : Nat)

theorem numeral_ne_nil : numeral zeros n ≠ [] :=
  List.append_ne_nil_of_right_ne_nil _ Nat.toDigits_ne_nil

theorem isDigit_of_mem_numeral {c : Char} (h : c ∈ numeral zeros n) : c.isDigit = true := by
  rcases List.mem_append.1 h with h | h
  · rw [List.eq_of_mem_replicate h]
    rfl
  · exact Nat.isDigit_of_mem_toDigits (by decide) (by decide) h

theorem digitsValue_numeral : digitsValue (numeral zeros n) = n := by
  have hvalue : digitsValue (numeral zeros n) = Nat.ofDigitChars 10 (numeral zeros n) 0 := rfl
  rw [hvalue, numeral, Nat.ofDigitChars_append, Nat.ofDigitChars_replicate_zero, Nat.mul_zero,
    Nat.ofDigitChars_ten_toDigits]

end Numeral

theorem isBlank_of_isDigit {c : Char} (h : c.isDigit = true) : Text.isBlank c = false := by
  have hbounds : 48 ≤ c.toNat ∧ c.toNat ≤ 57 := by
    simpa [Char.isDigit, UInt32.le_iff_toNat_le] using h
  unfold Text.isBlank
  simp
  omega

theorem isSolid_numeral (zeros n : Nat) : Text.IsSolid (.ofList (numeral zeros n)) := by
  unfold Text.IsSolid
  rw [String.toList_ofList]
  exact ⟨numeral_ne_nil zeros n, fun c hc => isBlank_of_isDigit (isDigit_of_mem_numeral zeros n hc)⟩

/-- A numeral is read as the number it writes: no sign stands in front of its digits. -/
theorem count?_numeral {n : Nat} (zeros : Nat) (h : n ≤ maxCount) :
    count? (.ofList (numeral zeros n)) = some n := by
  have hne : (numeral zeros n).isEmpty = false := by simpa using numeral_ne_nil zeros n
  have hdigits : (numeral zeros n).any (!·.isDigit) = false := by
    simpa using fun c hc => isDigit_of_mem_numeral zeros n hc
  unfold count?
  rw [String.toList_ofList]
  split
  · next rest hplus =>
    have hsign := isDigit_of_mem_numeral zeros n (hplus ▸ List.mem_cons_self)
    cases hsign
  · simp [hne, hdigits, digitsValue_numeral, h]

theorem settingOr_of_writes {setting : String} {n : Nat} (default : Nat) (h : Writes setting n)
    (hn : n ≤ maxCount) : settingOr default (some setting) = n := by
  obtain ⟨before, behind, zeros, hbefore, hbehind, hsetting⟩ := h
  have hprinted : Text.Printed [.word (.ofList (numeral zeros n))] setting.toList := by
    have hword : Text.Printed [.word (.ofList (numeral zeros n))]
        (before ++ ((String.ofList (numeral zeros n)).toList ++ behind)) :=
      .cons hbefore (isSolid_numeral zeros n) (by simp [Text.Token.ApartFrom]) (.nil hbehind)
    rwa [String.toList_ofList, ← hsetting] at hword
  rw [settingOr, Option.bind_some, hprinted.trim_eq, count?_numeral zeros hn, Option.getD_some]

/-! ## Reading settings -/

theorem ofSettings_of_writes {size overlap : String} {n m : Nat} (hsize : Writes size n)
    (hoverlap : Writes overlap m) (hn : n ≤ maxCount) (hm : m ≤ maxCount) :
    ofSettings (some size) (some overlap) =
      ⟨max 1 (min n 10000), if m < max 1 (min n 10000) then m else 0⟩ := by
  rw [ofSettings_eq, settingOr_of_writes 75 hsize hn, settingOr_of_writes 10 hoverlap hm]

/-- Options that are read from settings are valid and of a size within the limits, whatever the
settings are. The size is the number that its setting writes, brought into the limits, and the
overlap is the number that its setting writes, or none if that does not fit the size. So valid
options of such a size are read back from their printed numbers. -/
theorem ofSettings_limits :
    (∀ size overlap : Option String,
      (ofSettings size overlap).validate = .ok (ofSettings size overlap) ∧
      1 ≤ (ofSettings size overlap).chunkSize ∧ (ofSettings size overlap).chunkSize ≤ 10000) ∧
    (∀ n m : Nat, n < 2 ^ 64 → m < 2 ^ 64 → ∀ size overlap : String,
      Writes size n → Writes overlap m →
      (ofSettings (some size) (some overlap)).chunkSize = max 1 (min n 10000) ∧
      (ofSettings (some size) (some overlap)).chunkOverlap =
        if m < max 1 (min n 10000) then m else 0) ∧
    ∀ o : Options, o.validate = .ok o → o.chunkSize ≤ 10000 →
      ofSettings (some (toString o.chunkSize)) (some (toString o.chunkOverlap)) = o := by
  refine ⟨?_, ?_, ?_⟩
  · intro size overlap
    refine ⟨validate_ofSettings size overlap, ?_⟩
    rw [ofSettings_eq]
    dsimp only
    omega
  · intro n m hn hm size overlap hsize hoverlap
    rw [ofSettings_of_writes hsize hoverlap (Nat.le_sub_one_of_lt hn) (Nat.le_sub_one_of_lt hm)]
    exact ⟨rfl, rfl⟩
  · intro o hvalid hsize
    obtain ⟨hfits, -⟩ := validate_eq_ok_iff.1 hvalid
    have hclamped : max 1 (min o.chunkSize 10000) = o.chunkSize := by omega
    have hlimit : o.chunkSize ≤ maxCount := Nat.le_trans hsize (by decide)
    rw [ofSettings_of_writes (writes_toString _) (writes_toString _) hlimit (by omega), hclamped,
      if_pos hfits]

/-- A size with zeros in front is brought to the limit, and the largest overlap that fits it is
kept; printed, the two numbers are read back. -/
theorem ofSettings_limits_padded :
    Writes "\t0020000\n" 20000 ∧ Writes " 9999" 9999 ∧
    (ofSettings (some "\t0020000\n") (some " 9999")).chunkSize = 10000 ∧
    (ofSettings (some "\t0020000\n") (some " 9999")).chunkOverlap = 9999 ∧
    (⟨10000, 9999⟩ : Options).validate = .ok ⟨10000, 9999⟩ ∧
    ofSettings (some "10000") (some "9999") = ⟨10000, 9999⟩ := by
  have hsize : Writes "\t0020000\n" 20000 :=
    ⟨['\t'], ['\n'], 2, List.forall_mem_singleton.2 (by decide),
      List.forall_mem_singleton.2 (by decide), by decide⟩
  have hoverlap : Writes " 9999" 9999 :=
    ⟨[' '], [], 0, List.forall_mem_singleton.2 (by decide), List.forall_mem_nil _, by decide⟩
  have hvalid : (⟨10000, 9999⟩ : Options).validate = .ok ⟨10000, 9999⟩ := by decide
  obtain ⟨-, hnumbers, hprinted⟩ := ofSettings_limits
  obtain ⟨hread, hshared⟩ := hnumbers 20000 9999 (by decide) (by decide) _ _ hsize hoverlap
  exact ⟨hsize, hoverlap, hread, hshared, hvalid, hprinted ⟨10000, 9999⟩ hvalid (by decide)⟩

end SourceChunks.Options
