import LintGate.Path
import LintGate.Text.Blank
import LintGate.Text.Ordered

/-!
# Script paths

A script is named by its path from the repository's root.  A path as a person writes
it, with blanks around it, with backslashes or with leading `./`, is brought to one
form first.

## Main definitions

* `ScriptPath` — the name of a script.
* `ScriptPath.ofText` — the name that a written path stands for.
* `ScriptPath.ofNames` — the name of the file reached by a list of directory entries.
* `ScriptPath.relative?` — the name of a file below a root.
* `ScriptPath.under` — the file's path seen from a root.
-/

namespace LintGate

/-- The path of a script from the root of its repository. -/
structure ScriptPath where
  text : String
  deriving DecidableEq, Repr, Inhabited

namespace ScriptPath

open Text

instance : Textual ScriptPath := ⟨text, fun {a b} h => by cases a; cases b; exact congrArg mk h⟩

/-- A separator for a backslash. -/
def slashed (c : Char) : Char := if c = '\\' then '/' else c

/-- The one form of a written path: no outer blanks, slashes for backslashes, and no
`./` in front. -/
def normalize (cs : List Char) : List Char := Path.dropDots ((strip cs).map slashed)

/-- The script that a written path names. -/
def ofText (s : String) : ScriptPath := ⟨String.ofList (normalize s.toList)⟩

/-- The script reached by a list of directory entries. -/
def ofNames (names : List (List Char)) : ScriptPath :=
  ⟨String.ofList (normalize (joinWith ['/'] names))⟩

/-- The name of a file below a root; `none` for a file outside it. -/
def relative? (root path : String) : Option ScriptPath :=
  (Path.relative? root.toList path.toList).map ofNames

/-- The file's path, seen from a root. -/
def under (root : String) (s : ScriptPath) : String := Path.join root s.text

/-- The components of a script's path. -/
def components (s : ScriptPath) : List (List Char) := splitOn '/' s.text.toList

end ScriptPath
end LintGate
