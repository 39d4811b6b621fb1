-- SUMMARY: Texts that differ in the case of ASCII letters only, and where the first and the last separator are.
import Mathlib.Data.List.Forall2
import SourceChunks.Text.Split

/-!
# Letter case and separators

Texts are case variants of one another if they have the same characters place by place, up to the
case of ASCII letters. This is the relation that `sameLetters` decides. What follows the last
occurrence of a character does not hold that character again. A separator is the first one if its
first character does not come before it, and the last one if its last character does not come
behind it.
-/

namespace SourceChunks.Text

/-! ## Letter case -/

/-- One character, or a capital ASCII letter and its small one, which comes 32 places later. -/
def SameLetter (c d : Char) : Prop :=
  c = d ∨ (c.isUpper ∧ d.toNat = c.toNat + 32) ∨ (d.isUpper ∧ c.toNat = d.toNat + 32)

/-- Two texts are the same up to the case of their ASCII letters. -/
def CaseVariant (s t : String) : Prop :=
  List.Forall₂ SameLetter s.toList t.toList

theorem isUpper_iff {c : Char} : c.isUpper ↔ 65 ≤ c.toNat ∧ c.toNat ≤ 90 :=
  decide_eq_true_iff.trans (and_congr UInt32.le_iff_toNat_le UInt32.le_iff_toNat_le)

theorem toNat_toLower (c : Char) :
    c.toLower.toNat = if c.isUpper then c.toNat + 32 else c.toNat := by
  by_cases hupper : c.isUpper
  · have hlower : c.toLower = ⟨c.val + 32, _⟩ := dif_pos (of_decide_eq_true hupper)
    have hrange := isUpper_iff.1 hupper
    rw [if_pos hupper, hlower]
    -- The sum stays far below the width of the code.
    exact Nat.mod_eq_of_lt (by change c.toNat + 32 < 2 ^ 32; omega)
  · have hlower : c.toLower = c := dif_neg fun hval => hupper (decide_eq_true hval)
    rw [if_neg hupper, hlower]

/-- Small letters are no capital ones, so a letter has one other case only. -/
theorem toLower_eq_toLower_iff {c d : Char} : c.toLower = d.toLower ↔ SameLetter c d := by
  unfold SameLetter
  rw [← Char.toNat_inj, ← Char.toNat_inj, toNat_toLower, toNat_toLower]
  simp only [isUpper_iff]
  split <;> split <;> omega

theorem caseVariant_iff {s t : String} :
    CaseVariant s t ↔ s.toList.map Char.toLower = t.toList.map Char.toLower := by
  rw [← List.forall₂_eq_eq_eq, List.forall₂_map_left_iff, List.forall₂_map_right_iff]
  simp only [toLower_eq_toLower_iff]
  rfl

theorem sameLetters_iff {s t : String} : sameLetters s t ↔ CaseVariant s t := by
  rw [caseVariant_iff, sameLetters, beq_iff_eq]

instance (s t : String) : Decidable (CaseVariant s t) :=
  decidable_of_iff _ sameLetters_iff

theorem CaseVariant.symm {s t : String} (h : CaseVariant s t) : CaseVariant t s :=
  caseVariant_iff.2 (caseVariant_iff.1 h).symm

theorem CaseVariant.trans {s t u : String} (h₁ : CaseVariant s t) (h₂ : CaseVariant t u) :
    CaseVariant s u :=
  caseVariant_iff.2 ((caseVariant_iff.1 h₁).trans (caseVariant_iff.1 h₂))

/-! ## The last separator -/

theorem not_mem_of_cutLast?_eq_none {sep : Char} {cs : List Char} (h : cutLast? [sep] cs = none) :
    sep ∉ cs := by
  induction cs with
  | nil => simp
  | cons c cs ih =>
    unfold cutLast? at h
    split at h
    · cases h
    · next hnone =>
      have hne : sep ≠ c := by
        rintro rfl
        simp [List.isPrefixOf?] at h
      simpa [hne] using ih hnone

theorem not_mem_of_cutLast?_eq_some {sep : Char} {cs before rest : List Char}
    (h : cutLast? [sep] cs = some (before, rest)) : sep ∉ rest := by
  induction cs generalizing before with
  | nil => cases h
  | cons c cs ih =>
    unfold cutLast? at h
    split at h
    · next hsome =>
      cases h
      exact ih hsome
    · next hnone =>
      obtain ⟨tail, htail, heq⟩ := Option.map_eq_some_iff.1 h
      cases heq
      obtain ⟨-, rfl⟩ : sep = c ∧ cs = rest := by simpa [List.isPrefixOf?] using htail
      exact not_mem_of_cutLast?_eq_none hnone

/-- An occurrence that begins among fewer characters than a separator has ends behind them. -/
theorem isPrefixOf?_eq_none {sep cs : List Char} {c : Char} (hc : sep.getLast? = some c)
    (hcs : c ∉ cs) {before : List Char} (hbefore : before.length < sep.length) :
    sep.isPrefixOf? (before ++ cs) = none := by
  by_contra hsome
  obtain ⟨rest, hrest⟩ := Option.ne_none_iff_exists'.1 hsome
  rw [List.isPrefixOf?_eq_some_iff_append_eq, List.append_eq_append_iff] at hrest
  rcases hrest with ⟨more, hmore, -⟩ | ⟨tail, htail, hcs'⟩
  · rw [hmore, List.length_append] at hbefore
    omega
  · have hne : tail ≠ [] := by
      rintro rfl
      simp [htail] at hbefore
    rw [htail, List.getLast?_append_of_ne_nil _ hne] at hc
    exact hcs (hcs' ▸ List.mem_append_left _ (List.mem_of_getLast? hc))

theorem cutLast?_eq_none {sep cs : List Char} {c : Char} (hc : sep.getLast? = some c)
    (hcs : c ∉ cs) {before : List Char} (hbefore : before.length < sep.length) :
    cutLast? sep (before ++ cs) = none := by
  induction before with
  | nil =>
    induction cs with
    | nil => rfl
    | cons d cs ih =>
      have hmiss := isPrefixOf?_eq_none hc hcs hbefore
      rw [List.nil_append] at hmiss ih ⊢
      rw [cutLast?, ih fun h => hcs (List.mem_cons_of_mem d h), hmiss]
      rfl
  | cons b before ih =>
    have hmiss := isPrefixOf?_eq_none hc hcs hbefore
    rw [List.cons_append] at hmiss ⊢
    rw [cutLast?, ih (Nat.lt_of_succ_lt hbefore), hmiss]
    rfl

/-- The last separator is one that the last character of a separator does not follow. -/
theorem cutLast?_append {sep rest : List Char} {c : Char} (hc : sep.getLast? = some c)
    (hrest : c ∉ rest) (before : List Char) :
    cutLast? sep (before ++ (sep ++ rest)) = some (before, rest) := by
  induction before with
  | nil =>
    cases sep with
    | nil => cases hc
    | cons s sep =>
      have hnone : cutLast? (s :: sep) (sep ++ rest) = none :=
        cutLast?_eq_none hc hrest (Nat.lt_succ_self _)
      have hfound : (s :: sep).isPrefixOf? ((s :: sep) ++ rest) = some rest :=
        List.isPrefixOf?_eq_some_iff_append_eq.2 rfl
      rw [List.nil_append, List.cons_append, cutLast?, hnone, ← List.cons_append, hfound]
      rfl
  | cons b before ih => rw [List.cons_append, cutLast?, ih]

/-! ## The first separator -/

theorem cutFirst?_eq_none {c : Char} {cs : List Char} (h : c ∉ cs) (sep : List Char) :
    cutFirst? (c :: sep) cs = none := by
  induction cs with
  | nil => rfl
  | cons d cs ih =>
    rw [List.mem_cons, not_or] at h
    rw [cutFirst?, ih h.2]
    simp [List.isPrefixOf?, h.1]

/-- The first separator is one that its first character does not come before. -/
theorem cutFirst?_append {c : Char} {before : List Char} (h : c ∉ before) (sep rest : List Char) :
    cutFirst? (c :: sep) (before ++ ((c :: sep) ++ rest)) = some (before, rest) := by
  induction before with
  | nil =>
    have hfound : (c :: sep).isPrefixOf? ((c :: sep) ++ rest) = some rest :=
      List.isPrefixOf?_eq_some_iff_append_eq.2 rfl
    rw [List.nil_append, List.cons_append, cutFirst?, ← List.cons_append, hfound]
  | cons b before ih =>
    rw [List.mem_cons, not_or] at h
    rw [List.cons_append, cutFirst?, ih h.2]
    simp [List.isPrefixOf?, h.1]

/-! ## Joined parts -/

theorem splitLast?_of_not_mem {sep s : String} {c : Char} (hc : sep.toList.getLast? = some c)
    (hs : c ∉ s.toList) : splitLast? sep s = none := by
  have hsep : ([] : List Char).length < sep.toList.length :=
    List.length_pos_of_mem (List.mem_of_getLast? hc)
  have hnone := cutLast?_eq_none hc hs hsep
  rw [List.nil_append] at hnone
  rw [splitLast?, hnone]
  rfl

theorem intercalate_ne_empty {sep first : String} {parts : List String} (h : first.toList ≠ []) :
    sep.intercalate (first :: parts) ≠ "" := by
  intro hempty
  have hnil := congrArg String.toList hempty
  cases parts with
  | nil => exact h (by simpa using hnil)
  | cons next parts =>
      have hfirst : first = "" := by simp at hnil; exact hnil.1
      exact h (by rw [hfirst]; rfl)

theorem intercalate_cons_inj {sep first other : String} {parts : List String} :
    sep.intercalate (first :: parts) = sep.intercalate (other :: parts) ↔ first = other := by
  cases parts with
  | nil => simp
  | cons next parts =>
      refine ⟨fun h => ?_, fun h => by rw [h]⟩
      rw [← String.toList_inj] at h ⊢
      simpa using h

/-- Joined parts are cut in front of the last one. -/
theorem splitLast?_intercalate {sep : String} {c : Char} (hc : sep.toList.getLast? = some c)
    {parts : List String} (hparts : parts ≠ []) {last : String} (hlast : c ∉ last.toList) :
    splitLast? sep (sep.intercalate (parts ++ [last])) = some (sep.intercalate parts, last) := by
  have hjoined : (sep.intercalate (parts ++ [last])).toList =
      (sep.intercalate parts).toList ++ (sep.toList ++ last.toList) := by
    rw [String.intercalate_append_of_ne_nil hparts (List.cons_ne_nil last []),
      String.intercalate_singleton, String.toList_append, String.toList_append, List.append_assoc]
  rw [splitLast?, hjoined, cutLast?_append hc hlast]
  simp only [Option.map_some, String.ofList_toList]

theorem splitFirst?_of_not_mem {sep s : String} {c : Char} (hc : sep.toList.head? = some c)
    (hs : c ∉ s.toList) : splitFirst? sep s = none := by
  obtain ⟨rest, hrest⟩ := List.head?_eq_some_iff.1 hc
  rw [splitFirst?, hrest, cutFirst?_eq_none hs]
  rfl

theorem splitFirst?_append {sep s : String} {c : Char} (hc : sep.toList.head? = some c)
    {before rest : List Char} (hs : s.toList = before ++ (sep.toList ++ rest))
    (hbefore : c ∉ before) : splitFirst? sep s = some (.ofList before, .ofList rest) := by
  obtain ⟨more, hmore⟩ := List.head?_eq_some_iff.1 hc
  rw [splitFirst?, hs, hmore, cutFirst?_append hbefore]
  rfl

/-- Joined parts are cut behind the first one. -/
theorem splitFirst?_intercalate {sep : String} {c : Char} (hc : sep.toList.head? = some c)
    {first : String} (hfirst : c ∉ first.toList) {parts : List String} (hparts : parts ≠ []) :
    splitFirst? sep (sep.intercalate (first :: parts)) = some (first, sep.intercalate parts) := by
  have hjoined : (sep.intercalate (first :: parts)).toList =
      first.toList ++ (sep.toList ++ (sep.intercalate parts).toList) := by
    rw [String.intercalate_cons_of_ne_nil hparts, String.toList_append, String.toList_append,
      List.append_assoc]
  rw [splitFirst?_append hc hjoined hfirst, String.ofList_toList, String.ofList_toList]

/-! ## Leading and closing text -/

theorem beginsWith_iff {lead s : String} : beginsWith lead s = true ↔ lead.toList <+: s.toList :=
  List.isPrefixOf_iff_prefix

theorem after?_of_append {lead s : String} {rest : List Char}
    (h : s.toList = lead.toList ++ rest) : after? lead s = some (.ofList rest) := by
  rw [after?, List.isPrefixOf?_eq_some_iff_append_eq.2 h.symm]
  rfl

theorem isPrefixOf?_eq_none_of_not_isPrefix {lead cs : List Char} (h : ¬ lead <+: cs) :
    lead.isPrefixOf? cs = none := by
  by_contra hsome
  obtain ⟨rest, hrest⟩ := Option.ne_none_iff_exists'.1 hsome
  exact h ⟨rest, List.isPrefixOf?_eq_some_iff_append_eq.1 hrest⟩

theorem after?_eq_none {lead s : String} (h : ¬ lead.toList <+: s.toList) :
    after? lead s = none := by
  rw [after?, isPrefixOf?_eq_none_of_not_isPrefix h]
  rfl

/-- Leading text that stands once is removed once. -/
theorem dropAll_of_append {lead s : String} {rest : List Char} (hs : s.toList = lead.toList ++ rest)
    (hrest : ¬ lead.toList <+: rest) : dropAll lead s = .ofList rest := by
  have hlead : lead.toList ≠ [] := by
    intro hnil
    exact hrest (hnil ▸ List.nil_prefix)
  have hlength : rest.length < (lead.toList ++ rest).length := by
    simpa using List.length_pos_iff.2 hlead
  rw [dropAll, hs, dropLeads, List.isPrefixOf?_eq_some_iff_append_eq.2 rfl]
  simp only [if_pos hlength]
  rw [dropLeads, isPrefixOf?_eq_none_of_not_isPrefix hrest]

/-- A closing character that stands once is removed once. -/
theorem dropEndWhile_of_append {s : String} {cs : List Char} {c : Char} (hs : s.toList = cs ++ [c])
    (hcs : ∀ d ∈ cs.getLast?, d ≠ c) : dropEndWhile (· == c) s = .ofList cs := by
  have hstop : cs.reverse.dropWhile (· == c) = cs.reverse := by
    cases hrev : cs.reverse with
    | nil => rfl
    | cons d ds =>
      have hd : d ≠ c := hcs d (by rw [← List.head?_reverse, hrev]; rfl)
      exact List.dropWhile_cons_of_neg (by simpa using hd)
  rw [dropEndWhile, hs, List.reverse_append, List.reverse_singleton, List.singleton_append,
    List.dropWhile_cons_of_pos (by simp), hstop, List.reverse_reverse]

end SourceChunks.Text
