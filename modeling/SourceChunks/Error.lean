-- SUMMARY: What can go wrong, and how it is reported.

/-!
# Errors

The causes for which chunking fails. Only unusable input is an error: malformed source becomes
ordinary text.
-/

namespace SourceChunks

/-- What is wrong with chunking options. -/
inductive OptionsFault where
  /-- Chunks of no lines. -/
  | emptySize
  /-- Windows that share all their lines with the next one. -/
  | overlapTooLarge (overlap size : Nat)
  /-- A document that cannot be read. -/
  | unreadable
  /-- A fault described by a text. -/
  | other (text : String)
  deriving Repr, DecidableEq, Inhabited

/-- The causes of failure. -/
inductive Error where
  /-- No language has the tag or the extension. -/
  | unsupportedLanguage (name : String)
  /-- The parser gave no tree. -/
  | parse (text : String)
  /-- The options cannot be used. -/
  | invalidOptions (fault : OptionsFault)
  /-- The parser refused the grammar. -/
  | grammar (text : String)
  deriving Repr, DecidableEq, Inhabited

namespace OptionsFault

def message : OptionsFault → String
  | emptySize => "chunk_size must be > 0"
  | overlapTooLarge overlap size =>
    "chunk_overlap (" ++ toString overlap ++ ") must be smaller than chunk_size ("
      ++ toString size ++ ")"
  | unreadable => "Invalid options TOML"
  | other text => text

end OptionsFault

namespace Error

def message : Error → String
  | unsupportedLanguage name => "Unsupported language: " ++ name
  | parse text => "Parse error: " ++ text
  | invalidOptions fault => "Invalid configuration: " ++ fault.message
  | grammar text => "Tree-sitter error: " ++ text

end Error

end SourceChunks
