-- SUMMARY: Collapsed texts: every text shows its words, and what begins a collapsed text is collapsed but for a space at its end.
import SourceChunks.Proofs.Text.Printed

/-!
# Collapsed texts

Every text prints its words, and collapsing prints them again with one space between each two. What
begins a collapsed text is made of words and single spaces as well: it is collapsed itself, or it is
so without the space at its end.
-/

namespace SourceChunks.Text

/-! ## The words of a text -/

/-- A text is white space, or it begins with a word behind some. -/
theorem exists_first_word (cs : List Char) :
    (∀ c ∈ cs, isBlank c = true) ∨
      ∃ gap word rest : List Char, cs = gap ++ (word ++ rest) ∧ (∀ c ∈ gap, isBlank c = true) ∧
        word ≠ [] ∧ (∀ c ∈ word, isBlank c = false) ∧ ∀ c ∈ rest.head?, isBlank c = true := by
  have hgap : ∀ c ∈ cs.takeWhile isBlank, isBlank c = true := by
    intro c hc
    exact List.all_eq_true.1 List.all_takeWhile c hc
  cases hbody : cs.dropWhile isBlank with
  | nil =>
      have hall : cs.takeWhile isBlank = cs := by
        rw [← List.append_nil (cs.takeWhile isBlank), ← hbody, List.takeWhile_append_dropWhile]
      exact .inl (hall ▸ hgap)
  | cons c body =>
      have hc : isBlank c = false :=
        not_of_mem_head?_dropWhile (Option.mem_def.2 (by rw [hbody]; rfl))
      refine .inr ⟨cs.takeWhile isBlank, (c :: body).takeWhile (!isBlank ·),
        (c :: body).dropWhile (!isBlank ·), ?_, hgap, by simp [hc], ?_, ?_⟩
      · rw [List.takeWhile_append_dropWhile, ← hbody, List.takeWhile_append_dropWhile]
      · intro d hd
        simpa using List.all_eq_true.1 List.all_takeWhile d hd
      · intro d hd
        simpa using not_of_mem_head?_dropWhile hd

/-- A text prints its words, whatever white space is around them. -/
theorem printed_words (cs : List Char) : Printed ((words (.ofList cs)).map .word) cs := by
  rcases exists_first_word cs with hblank | ⟨gap, word, rest, hcs, hgap, hne, hword, hrest⟩
  · have hnone : words (.ofList cs) = [] := by
      have hskip := words_blank_append hblank []
      rw [List.append_nil] at hskip
      rw [hskip]
      rfl
    rw [hnone]
    exact .nil hblank
  · have hprinted := printed_words rest
    rw [hcs, words_blank_append hgap, words_cons hne hword hrest, List.map_cons]
    have hsolid : IsSolid (.ofList word) := by
      rw [IsSolid, String.toList_ofList]
      exact ⟨hne, hword⟩
    have hapart :
        (Token.word (.ofList word)).ApartFrom ((words (.ofList rest)).map .word) rest := by
      intro next hnext _
      obtain ⟨c, hc⟩ : ∃ c, c ∈ rest.head? := by
        cases rest with
        | nil => cases hnext
        | cons c rest => exact ⟨c, rfl⟩
      exact ⟨c, hc, hrest c hc⟩
    have hcons : Printed (.word (.ofList word) :: (words (.ofList rest)).map .word)
        (gap ++ ((String.ofList word).toList ++ rest)) :=
      .cons hgap hsolid hapart hprinted
    rwa [String.toList_ofList] at hcons
termination_by cs.length
decreasing_by
  have := List.length_pos_of_ne_nil hne
  rw [hcs, List.length_append, List.length_append]
  omega

/-! ## Words with single spaces between them -/

theorem toList_spaced (first second : String) (rest : List String) :
    (" ".intercalate (first :: second :: rest)).toList =
      first.toList ++ ' ' :: (" ".intercalate (second :: rest)).toList := by
  simp [String.toList_intercalate]

theorem trimmed_spaced {names : List String} (h : ∀ name ∈ names, IsSolid name) :
    Trimmed (" ".intercalate names) := by
  induction names with
  | nil => simp [Trimmed]
  | cons first names ih =>
      rw [List.forall_mem_cons] at h
      cases names with
      | nil =>
          rw [String.intercalate_singleton]
          exact ⟨fun c hc => h.1.2 c (List.mem_of_mem_head? hc),
            fun c hc => h.1.2 c (List.mem_of_mem_getLast? hc)⟩
      | cons second rest =>
          have hne : (" ".intercalate (second :: rest)).toList ≠ [] := by
            have hsecond := (h.2 second List.mem_cons_self).1
            exact fun hnil => intercalate_ne_empty hsecond (String.toList_inj.1 hnil)
          rw [Trimmed, toList_spaced]
          constructor
          · intro c hc
            rw [List.head?_append_of_ne_nil _ h.1.1] at hc
            exact h.1.2 c (List.mem_of_mem_head? hc)
          · intro c hc
            rw [List.getLast?_append_of_ne_nil _ (List.cons_ne_nil _ _),
              List.getLast?_cons_of_ne_nil hne] at hc
            exact (ih h.2).2 c hc

theorem words_spaced {names : List String} (h : ∀ name ∈ names, IsSolid name) :
    words (" ".intercalate names) = names := by
  induction names with
  | nil => rfl
  | cons first names ih =>
      rw [List.forall_mem_cons] at h
      have hfirst : words first = [first] := by
        simpa using words_of_forall h.1.1 h.1.2
      cases names with
      | nil => rw [String.intercalate_singleton, hfirst]
      | cons second rest =>
          rw [← String.ofList_toList (s := " ".intercalate _), toList_spaced,
            words_append (by decide), String.ofList_toList, String.ofList_toList, hfirst, ih h.2]
          rfl

/-- What begins words with single spaces between them is again such words, the last of which may be
cut short, or has the space behind its last word. -/
theorem exists_spaced_of_isPrefix {names : List String} (h : ∀ name ∈ names, IsSolid name)
    {cs : List Char} (hcs : cs <+: (" ".intercalate names).toList) :
    ∃ lead : List String, (∀ name ∈ lead, IsSolid name) ∧
      (cs = (" ".intercalate lead).toList ∨
        lead ≠ [] ∧ cs = (" ".intercalate lead).toList ++ [' ']) := by
  -- a word cut short is a word, unless nothing is left of it
  have hcut {name : String} (hname : IsSolid name) {cs : List Char} (hcs : cs <+: name.toList) :
      ∃ lead : List String, (∀ name ∈ lead, IsSolid name) ∧ cs = (" ".intercalate lead).toList := by
    rcases eq_or_ne cs [] with rfl | hne
    · exact ⟨[], by simp, rfl⟩
    · refine ⟨[.ofList cs], ?_, by simp⟩
      rintro _ (_ | ⟨_, ⟨⟩⟩)
      rw [IsSolid, String.toList_ofList]
      exact ⟨hne, fun c hc => hname.2 c (hcs.subset hc)⟩
  induction names generalizing cs with
  | nil => exact ⟨[], by simp, .inl (by simpa using hcs)⟩
  | cons first names ih =>
      rw [List.forall_mem_cons] at h
      cases names with
      | nil =>
          rw [String.intercalate_singleton] at hcs
          obtain ⟨lead, hlead, heq⟩ := hcut h.1 hcs
          exact ⟨lead, hlead, .inl heq⟩
      | cons second rest =>
          rw [toList_spaced] at hcs
          obtain ⟨after, hafter⟩ := hcs
          rcases List.append_eq_append_iff.1 hafter with ⟨more, hfirst, -⟩ | ⟨more, rfl, hmore⟩
          · obtain ⟨lead, hlead, heq⟩ := hcut h.1 ⟨more, hfirst.symm⟩
            exact ⟨lead, hlead, .inl heq⟩
          · cases more with
            | nil => exact ⟨[first], by simpa using h.1, .inl (by simp)⟩
            | cons c more =>
                rw [List.cons_append, List.cons.injEq] at hmore
                obtain ⟨rfl, hmore⟩ := hmore
                obtain ⟨lead, hlead, heq⟩ := ih h.2 ⟨after, hmore.symm⟩
                cases lead with
                | nil =>
                    obtain rfl : more = [] := by simpa using heq
                    exact ⟨[first], by simpa using h.1, .inr ⟨by simp, by simp⟩⟩
                | cons second lead =>
                    refine ⟨first :: second :: lead, List.forall_mem_cons.2 ⟨h.1, hlead⟩, ?_⟩
                    rw [toList_spaced]
                    rcases heq with rfl | ⟨-, rfl⟩
                    · exact .inl rfl
                    · exact .inr ⟨by simp, by simp⟩

/-! ## What begins a collapsed text -/

theorem isSolid_of_mem_words {s name : String} (h : name ∈ words s) : IsSolid name :=
  mem_words h

/-- White space at the end of a text is trimmed away. -/
theorem trimEnd_append {cs gap : List Char} (hcs : ∀ c ∈ cs.getLast?, isBlank c = false)
    (hgap : ∀ c ∈ gap, isBlank c = true) : trimEnd (.ofList (cs ++ gap)) = .ofList cs := by
  have hstop : cs.reverse.dropWhile isBlank = cs.reverse := by
    cases hrev : cs.reverse with
    | nil => rfl
    | cons c rest =>
        have hc := hcs c (by rw [← List.head?_reverse, hrev]; rfl)
        exact List.dropWhile_cons_of_neg (by simp [hc])
  rw [trimEnd, dropEndWhile, String.toList_ofList, List.reverse_append,
    List.dropWhile_append_of_pos (by simpa using hgap), hstop, List.reverse_reverse]

theorem getLast?_append_space (s : String) : (s ++ " ").toList.getLast? = some ' ' := by
  simp

theorem trimEnd_append_space {s : String} (h : Trimmed s) : trimEnd (s ++ " ") = s := by
  have htrim : trimEnd (.ofList (s.toList ++ [' '])) = .ofList s.toList :=
    trimEnd_append h.2 (List.forall_mem_singleton.2 rfl)
  rwa [String.ofList_append, String.ofList_toList] at htrim

theorem trimEnd_of_trimmed {s : String} (h : Trimmed s) : trimEnd s = s := by
  have htrim : trimEnd (.ofList (s.toList ++ [])) = .ofList s.toList :=
    trimEnd_append h.2 (by simp)
  rwa [List.append_nil, String.ofList_toList] at htrim

theorem length_trimEnd_le (s : String) : (trimEnd s).length ≤ s.length := by
  have hle := (List.dropWhile_sublist (l := s.toList.reverse) isBlank).length_le
  rwa [List.length_reverse, String.length_toList, ← List.length_reverse,
    ← String.length_ofList] at hle

theorem trimmed_collapse (s : String) : Trimmed (collapse s) :=
  trimmed_spaced fun _ => isSolid_of_mem_words

/-- A text that begins a collapsed one is trimmed, or a single space stands behind what is; to
collapse it takes that space away. -/
theorem collapse_of_isPrefix {s beginning : String}
    (h : beginning.toList <+: (collapse s).toList) :
    collapse beginning = trimEnd beginning ∧
      (Trimmed beginning ∨ ∃ line : String, IsName line ∧ beginning = line ++ " ") := by
  obtain ⟨lead, hlead, heq⟩ := exists_spaced_of_isPrefix (fun _ => isSolid_of_mem_words) h
  have htrimmed := trimmed_spaced hlead
  have hcollapse : collapse (" ".intercalate lead) = " ".intercalate lead := by
    rw [collapse, words_spaced hlead]
  rcases heq with heq | ⟨hne, heq⟩
  · obtain rfl := String.toList_inj.1 heq
    exact ⟨by rw [hcollapse, trimEnd_of_trimmed htrimmed], .inl htrimmed⟩
  · have hwords : words beginning = lead := by
      rw [← String.ofList_toList (s := beginning), heq, words_append (by decide),
        String.ofList_toList, words_spaced hlead]
      exact List.append_nil lead
    have hbeginning : beginning = " ".intercalate lead ++ " " := by
      rw [← String.toList_inj, heq, String.toList_append]
      rfl
    constructor
    · rw [collapse, hwords, hbeginning, trimEnd_append_space htrimmed]
    · refine .inr ⟨" ".intercalate lead, ⟨?_, htrimmed⟩, hbeginning⟩
      obtain ⟨first, rest, rfl⟩ := List.exists_cons_of_ne_nil hne
      exact intercalate_ne_empty (hlead first List.mem_cons_self).1

end SourceChunks.Text
