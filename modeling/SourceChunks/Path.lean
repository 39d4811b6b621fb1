-- SUMMARY: File paths: the file name of a path and its extension.
import SourceChunks.Text.Split

/-!
# File paths

Paths with slashes between their components. Empty components and single dots do not count. The
extension of a file name is what follows its last dot, unless that dot comes first.
-/

namespace SourceChunks.Path

/-- The last component of a path that counts, unless it leads to the parent directory. -/
def fileName? (path : String) : Option String :=
  (((Text.splitAt '/' path).filter fun part => !part.isEmpty && part != ".").getLast?).filter
    (· != "..")

/-- The extension of the file that a path leads to, without the dot. -/
def extension? (path : String) : Option String :=
  (fileName? path).bind fun name =>
    ((Text.splitLast? "." name).filter fun (stem, _) => !stem.isEmpty).map (·.2)

end SourceChunks.Path
