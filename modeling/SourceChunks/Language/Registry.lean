-- SUMMARY: All languages, and how one is found by tag, by extension or by path.
import SourceChunks.Error
import SourceChunks.Language.CSharp
import SourceChunks.Language.Go
import SourceChunks.Language.Java
import SourceChunks.Language.JavaScript
import SourceChunks.Language.Php
import SourceChunks.Language.Python
import SourceChunks.Language.Rust
import SourceChunks.Language.TypeScript
import SourceChunks.Path

/-!
# The registry of languages

The languages that can be chunked, and the look-ups that choose one. Tags and extensions are
compared without regard to the case of ASCII letters; where several languages fit, the first one is
chosen.
-/

namespace SourceChunks.Language

def all : List Language :=
  [javaScript, typeScript, tsx, python, php, rust, go, java, cSharp]

def ofTag (tag : String) : Except Error Language :=
  match all.find? fun lang => Text.sameLetters lang.tag tag with
  | some lang => .ok lang
  | none => .error (.unsupportedLanguage tag)

/-- The language of a file extension, with or without dots in front of it. -/
def ofExtension (extension : String) : Except Error Language :=
  let extension := Text.dropStartWhile (· == '.') extension
  match all.find? (·.handlesExtension extension) with
  | some lang => .ok lang
  | none => .error (.unsupportedLanguage extension)

/-- The language of the file that a path leads to. -/
def ofPath (path : String) : Except Error Language :=
  match Path.extension? path with
  | some extension => ofExtension extension
  | none => .error (.unsupportedLanguage path)

/-- The kinds of calls of all languages. -/
def allCallKinds : List String :=
  (all.flatMap (·.callKinds)).eraseDups

end SourceChunks.Language
