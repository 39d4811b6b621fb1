-- SUMMARY: Each tag and each extension, in any case of its letters, belongs to one language at most.
import Mathlib.Data.List.TakeWhile
import SourceChunks.Language.Registry
import SourceChunks.Proofs.Text.Split
import SourceChunks.Template

/-!
# Unambiguous look-ups

No two languages share a tag or an extension, whatever the case of the letters, and none uses those
of templates. So the order in which languages are tried does not matter: the look-ups find a
language exactly if one has the tag or the extension, and it is that language.
-/

namespace SourceChunks

/-! ## Extensions of paths -/

/-- The extension of a path is a case variant of a known one. -/
def Path.HasExtension (path known : String) : Prop :=
  ∃ extension ∈ Path.extension? path, Text.CaseVariant extension known

instance (path known : String) : Decidable (Path.HasExtension path known) :=
  inferInstanceAs (Decidable (∃ extension ∈ Path.extension? path, Text.CaseVariant extension known))

theorem Path.dot_not_mem_extension {path extension : String}
    (h : Path.extension? path = some extension) : '.' ∉ extension.toList := by
  obtain ⟨name, -, hname⟩ := Option.bind_eq_some_iff.1 h
  obtain ⟨⟨stem, _⟩, hsplit, rfl⟩ := Option.map_eq_some_iff.1 hname
  obtain ⟨_, hcut, heq⟩ := Option.map_eq_some_iff.1 (Option.filter_eq_some_iff.1 hsplit).1
  cases heq
  rw [String.toList_ofList]
  exact Text.not_mem_of_cutLast?_eq_some hcut

/-- The extension of a path has no leading dots that a look-up could skip. -/
theorem Path.dropStartWhile_dot_extension {path extension : String}
    (h : Path.extension? path = some extension) :
    Text.dropStartWhile (· == '.') extension = extension := by
  have hhead : extension.toList.dropWhile (· == '.') = extension.toList := by
    rw [List.dropWhile_eq_self_iff]
    intro hlen hdot
    exact dot_not_mem_extension h (eq_of_beq hdot ▸ List.getElem_mem hlen)
  rw [Text.dropStartWhile, hhead, String.ofList_toList]

theorem Path.HasExtension.caseVariant {path known known' : String}
    (h : HasExtension path known) (h' : HasExtension path known') :
    Text.CaseVariant known known' := by
  obtain ⟨extension, hpath, hknown⟩ := h
  obtain ⟨_, hpath', hknown'⟩ := h'
  cases (Option.mem_def.1 hpath).symm.trans hpath'
  exact hknown.symm.trans hknown'

namespace Language

/-- A file belongs to a language by its extension. -/
def Handles (lang : Language) (path : String) : Prop :=
  ∃ known ∈ lang.extensions, Path.HasExtension path known

instance (lang : Language) (path : String) : Decidable (lang.Handles path) :=
  inferInstanceAs (Decidable (∃ known ∈ lang.extensions, Path.HasExtension path known))

/-! ## What languages do not share -/

theorem all_pairwise_tag : all.Pairwise fun a b => ¬Text.CaseVariant a.tag b.tag := by
  decide

theorem all_pairwise_extensions :
    all.Pairwise fun a b => ∀ x ∈ a.extensions, ∀ y ∈ b.extensions, ¬Text.CaseVariant x y := by
  decide

theorem tag_ne_template : ∀ lang ∈ all, ¬Text.CaseVariant lang.tag Template.tag := by
  decide

theorem extension_ne_template :
    ∀ lang ∈ all, ∀ known ∈ lang.extensions, ¬Text.CaseVariant known Template.tag := by
  decide

/-! ## Look-ups -/

/-- Where no two members satisfy a test, the first one that does is any that does. -/
theorem find?_eq_some_of_pairwise {α : Type} {p : α → Bool} {l : List α} {a : α}
    (hpair : l.Pairwise fun a b => p a → ¬p b) (ha : a ∈ l) (hp : p a) : l.find? p = some a := by
  induction hpair with
  | nil => cases ha
  | cons hhead hpair ih =>
    rcases List.mem_cons.1 ha with rfl | ha
    · exact List.find?_cons_of_pos hp
    · rw [List.find?_cons_of_neg fun hfirst => hhead _ ha hfirst hp]
      exact ih ha

theorem ofTag_eq_ok {lang : Language} {tag : String} (hlang : lang ∈ all)
    (htag : Text.CaseVariant tag lang.tag) : ofTag tag = .ok lang := by
  have hpair : all.Pairwise fun a b => Text.sameLetters a.tag tag → ¬Text.sameLetters b.tag tag :=
    all_pairwise_tag.imp fun hne ha hb =>
      hne ((Text.sameLetters_iff.1 ha).trans (Text.sameLetters_iff.1 hb).symm)
  rw [ofTag, find?_eq_some_of_pairwise hpair hlang (Text.sameLetters_iff.2 htag.symm)]

theorem ofTag_eq_error {tag : String} (h : ∀ lang ∈ all, ¬Text.CaseVariant tag lang.tag) :
    ofTag tag = .error (.unsupportedLanguage tag) := by
  have hnone : all.find? (fun lang => Text.sameLetters lang.tag tag) = none := by
    rw [List.find?_eq_none]
    intro lang hlang hsame
    exact h lang hlang (Text.sameLetters_iff.1 hsame).symm
  rw [ofTag, hnone]

theorem handlesExtension_iff {lang : Language} {extension : String} :
    lang.handlesExtension extension ↔
      ∃ known ∈ lang.extensions, Text.CaseVariant extension known := by
  simp only [handlesExtension, List.any_eq_true, Text.sameLetters_iff]

theorem handles_iff {lang : Language} {path extension : String}
    (h : Path.extension? path = some extension) :
    lang.Handles path ↔ lang.handlesExtension extension := by
  simp [Handles, Path.HasExtension, handlesExtension_iff, h]

theorem ofPath_eq_ok {lang : Language} {path : String} (hlang : lang ∈ all)
    (h : lang.Handles path) : ofPath path = .ok lang := by
  obtain ⟨known, hknown, extension, hpath, hvariant⟩ := h
  have hpair : all.Pairwise fun a b =>
      a.handlesExtension extension → ¬b.handlesExtension extension := by
    refine all_pairwise_extensions.imp fun hne ha hb => ?_
    obtain ⟨x, hx, hxe⟩ := handlesExtension_iff.1 ha
    obtain ⟨y, hy, hye⟩ := handlesExtension_iff.1 hb
    exact hne x hx y hy (hxe.symm.trans hye)
  have hfind := find?_eq_some_of_pairwise hpair hlang
    (handlesExtension_iff.2 ⟨known, hknown, hvariant⟩)
  simp only [ofPath, Option.mem_def.1 hpath, ofExtension,
    Path.dropStartWhile_dot_extension hpath, hfind]

/-- The error names the extension, or the whole path where there is none. -/
theorem ofPath_eq_error {path : String} (h : ∀ lang ∈ all, ¬lang.Handles path) :
    ofPath path = .error (.unsupportedLanguage ((Path.extension? path).getD path)) := by
  cases hpath : Path.extension? path with
  | none => rw [ofPath, hpath]; rfl
  | some extension =>
    have hnone : all.find? (·.handlesExtension extension) = none := by
      rw [List.find?_eq_none]
      intro lang hlang hhandles
      exact h lang hlang ((handles_iff hpath).2 hhandles)
    simp only [ofPath, hpath, ofExtension, Path.dropStartWhile_dot_extension hpath, hnone,
      Option.getD_some]

end Language

end SourceChunks
