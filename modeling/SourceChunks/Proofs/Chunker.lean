-- SUMMARY: Chunking by path and chunking by tag agree, and which paths and tags are refused.
import SourceChunks.Chunker
import SourceChunks.Proofs.Language.Registry

/-!
# Two ways to choose the language

A file is chunked by its path or by a tag. The path decides by its extension, the tag by itself,
and templates are told apart before any language is looked up. A path and a tag of one language
give the same chunks; a path or a tag of none is refused before the content is looked at.
-/

namespace SourceChunks

namespace Chunker

/-! ## What is known -/

/-- A path leads to a template or to a file of some language. -/
def KnownPath (path : String) : Prop :=
  Path.HasExtension path Template.tag ∨ ∃ lang ∈ Language.all, lang.Handles path

/-- A tag is a case variant of the one of templates or of some language. -/
def KnownTag (tag : String) : Prop :=
  Text.CaseVariant tag Template.tag ∨ ∃ lang ∈ Language.all, Text.CaseVariant tag lang.tag

instance (path : String) : Decidable (KnownPath path) :=
  inferInstanceAs (Decidable (_ ∨ ∃ lang ∈ Language.all, lang.Handles path))

instance (tag : String) : Decidable (KnownTag tag) :=
  inferInstanceAs (Decidable (_ ∨ ∃ lang ∈ Language.all, Text.CaseVariant tag lang.tag))

theorem isTemplatePath_iff {path : String} :
    isTemplatePath path ↔ Path.HasExtension path Template.tag := by
  simp only [isTemplatePath, Option.any_eq_true, Path.HasExtension, Text.sameLetters_iff,
    Option.mem_def]

theorem not_isTemplatePath_of_handles {lang : Language} {path : String}
    (hlang : lang ∈ Language.all) (h : lang.Handles path) : ¬isTemplatePath path := by
  intro htemplate
  obtain ⟨known, hknown, hpath⟩ := h
  exact Language.extension_ne_template lang hlang known hknown
    (hpath.caseVariant (isTemplatePath_iff.1 htemplate))

/-! ## The two entry points -/

theorem new_eq_ok {options : Options} (h : options.validate = .ok options) :
    new options = .ok ⟨options, h⟩ := by
  unfold new
  split
  · rfl
  · next error herror =>
    cases herror.symm.trans h

variable (chunker : Chunker) {content file tag : String} {tree : Option Node} {lang : Language}

/-- A tree is all that chunking can lack: the check for blank content only saves work. -/
theorem parsedChunks_some (root : Node) :
    chunker.parsedChunks lang (some root) content file =
      .ok (Chunk.ofTree lang root content file chunker.options) := by
  unfold parsedChunks Chunk.ofTree
  split <;> rfl

theorem chunk_of_template (h : Path.HasExtension file Template.tag) :
    chunker.chunk content file tree = .ok (Template.chunks content file chunker.options) :=
  if_pos (isTemplatePath_iff.2 h)

theorem chunk_of_handles (hlang : lang ∈ Language.all) (h : lang.Handles file) :
    chunker.chunk content file tree = chunker.parsedChunks lang tree content file := by
  rw [chunk, if_neg (not_isTemplatePath_of_handles hlang h), Language.ofPath_eq_ok hlang h]
  rfl

theorem chunk_of_not_knownPath (h : ¬KnownPath file) :
    chunker.chunk content file tree =
      .error (.unsupportedLanguage ((Path.extension? file).getD file)) := by
  obtain ⟨htemplate, hlang⟩ := not_or.1 h
  have hnone : ∀ lang ∈ Language.all, ¬lang.Handles file := by simpa using hlang
  rw [chunk, if_neg (mt isTemplatePath_iff.1 htemplate), Language.ofPath_eq_error hnone]
  rfl

theorem chunkWithLanguage_of_template (h : Text.CaseVariant tag Template.tag) :
    chunker.chunkWithLanguage content file tag tree =
      .ok (Template.chunks content file chunker.options) :=
  if_pos (Text.sameLetters_iff.2 h)

theorem chunkWithLanguage_of_tag (hlang : lang ∈ Language.all) (h : Text.CaseVariant tag lang.tag) :
    chunker.chunkWithLanguage content file tag tree =
      chunker.parsedChunks lang tree content file := by
  have htemplate : ¬Text.sameLetters tag Template.tag := fun hsame =>
    Language.tag_ne_template lang hlang (h.symm.trans (Text.sameLetters_iff.1 hsame))
  rw [chunkWithLanguage, if_neg htemplate, Language.ofTag_eq_ok hlang h]
  rfl

theorem chunkWithLanguage_of_not_knownTag (h : ¬KnownTag tag) :
    chunker.chunkWithLanguage content file tag tree = .error (.unsupportedLanguage tag) := by
  obtain ⟨htemplate, hlang⟩ := not_or.1 h
  have hnone : ∀ lang ∈ Language.all, ¬Text.CaseVariant tag lang.tag := by simpa using hlang
  rw [chunkWithLanguage, if_neg (mt Text.sameLetters_iff.1 htemplate),
    Language.ofTag_eq_error hnone]
  rfl

theorem chunkWithLanguage_of_knownTag (root : Node) (h : KnownTag tag) :
    ∃ chunks, chunker.chunkWithLanguage content file tag (some root) = .ok chunks := by
  rcases h with htemplate | ⟨lang, hlang, htag⟩
  · exact ⟨_, chunker.chunkWithLanguage_of_template htemplate⟩
  · exact ⟨_, (chunker.chunkWithLanguage_of_tag hlang htag).trans (chunker.parsedChunks_some root)⟩

/-- With a tree at hand, only an unknown tag is a reason to fail. -/
theorem chunkWithLanguage_fails_iff (root : Node) :
    (∃ error, chunker.chunkWithLanguage content file tag (some root) = .error error) ↔
      ¬KnownTag tag := by
  constructor
  · rintro ⟨error, herror⟩ hknown
    obtain ⟨chunks, hchunks⟩ :
        ∃ chunks, chunker.chunkWithLanguage content file tag (some root) = .ok chunks :=
      chunker.chunkWithLanguage_of_knownTag root hknown
    cases herror.symm.trans hchunks
  · intro hunknown
    exact ⟨_, chunker.chunkWithLanguage_of_not_knownTag hunknown⟩

/-- With valid options, a path and a tag of one language choose that language and give the same
chunks, and so do those of templates, whatever the case of their letters. A path without a known
extension is refused whatever the content is, and of all tags the unknown ones are refused. -/
theorem entryPoints_agree (options : Options) (hvalid : options.validate = .ok options) :
    ∃ chunker, new options = .ok chunker ∧ chunker.options = options ∧
      ∀ content file : String,
        (Path.HasExtension file Template.tag → ∀ tag, Text.CaseVariant tag Template.tag →
          ∀ tree, chunker.chunk content file tree = .ok (Template.chunks content file options) ∧
            chunker.chunkWithLanguage content file tag tree =
              .ok (Template.chunks content file options)) ∧
        (∀ lang ∈ Language.all, lang.Handles file → ∀ tag, Text.CaseVariant tag lang.tag →
          Language.ofPath file = .ok lang ∧ Language.ofTag tag = .ok lang ∧
            (∀ tree, chunker.chunk content file tree =
              chunker.chunkWithLanguage content file tag tree) ∧
            ∀ root, chunker.chunkWithLanguage content file tag (some root) =
              .ok (Chunk.ofTree lang root content file options)) ∧
        (¬KnownPath file → ∀ tree, chunker.chunk content file tree =
          .error (.unsupportedLanguage ((Path.extension? file).getD file))) ∧
        ∀ tag,
          (¬KnownTag tag → ∀ tree, chunker.chunkWithLanguage content file tag tree =
            .error (.unsupportedLanguage tag)) ∧
          ∀ root, (∃ error, chunker.chunkWithLanguage content file tag (some root) =
            .error error) ↔ ¬KnownTag tag := by
  refine ⟨⟨options, hvalid⟩, new_eq_ok hvalid, rfl, fun content file => ⟨?_, ?_, ?_, ?_⟩⟩
  · intro hfile tag htag tree
    exact ⟨chunk_of_template _ hfile, chunkWithLanguage_of_template _ htag⟩
  · intro lang hlang hfile tag htag
    refine ⟨Language.ofPath_eq_ok hlang hfile, Language.ofTag_eq_ok hlang htag, ?_, ?_⟩
    · intro tree
      rw [chunk_of_handles _ hlang hfile, chunkWithLanguage_of_tag _ hlang htag]
    · intro root
      rw [chunkWithLanguage_of_tag _ hlang htag, parsedChunks_some]
  · intro hfile tree
    exact chunk_of_not_knownPath _ hfile
  · intro tag
    exact ⟨fun htag tree => chunkWithLanguage_of_not_knownTag _ htag,
      chunkWithLanguage_fails_iff _⟩

/-- Capital letters behind several dots, a file without an extension, and an unknown tag. -/
theorem entryPoints_agree_capitals :
    Options.validate {} = .ok {} ∧ Language.rust.Handles "./.src/lib.test.Rs" ∧
      Text.CaseVariant "RUST" Language.rust.tag ∧ ¬KnownPath "src/Makefile" ∧ ¬KnownTag "cobol" ∧
      ∃ chunker, new {} = .ok chunker ∧ ∀ content tree,
        chunker.chunk content "./.src/lib.test.Rs" tree =
          chunker.chunkWithLanguage content "./.src/lib.test.Rs" "RUST" tree ∧
        chunker.chunk content "src/Makefile" tree =
          .error (.unsupportedLanguage "src/Makefile") ∧
        chunker.chunkWithLanguage content "src/Makefile" "cobol" tree =
          .error (.unsupportedLanguage "cobol") := by
  have hvalid : Options.validate {} = .ok {} := rfl
  have hrust : Language.rust ∈ Language.all := by simp [Language.all]
  have hfile : Language.rust.Handles "./.src/lib.test.Rs" := by decide
  have htag : Text.CaseVariant "RUST" Language.rust.tag := by decide
  have hmake : ¬KnownPath "src/Makefile" := by decide
  have hcobol : ¬KnownTag "cobol" := by decide
  obtain ⟨chunker, hnew, -, hagree⟩ := entryPoints_agree {} hvalid
  refine ⟨hvalid, hfile, htag, hmake, hcobol, chunker, hnew, fun content tree => ⟨?_, ?_, ?_⟩⟩
  · exact ((hagree content _).2.1 _ hrust hfile _ htag).2.2.1 tree
  · exact (hagree content _).2.2.1 hmake tree
  · exact ((hagree content _).2.2.2 _).1 hcobol tree

end Chunker

end SourceChunks
