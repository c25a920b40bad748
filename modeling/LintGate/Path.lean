import LintGate.Text.Lines

/-!
# Paths as texts

A path is a text that is shown as it was written.  It is compared by its *components*:
empty pieces and single dots do not count, except for a dot that a relative path
starts with.

## Main definitions

* `Path.components` — the root `/`, a leading dot, `..` and the names of a path.
* `Path.join` — a path seen from a directory; an absolute path replaces the directory.
* `Path.relative?` — the components of a path below a directory.
* `Path.extension?` — what follows the last dot of a file name.
* `Path.dropDots`, `Path.dropSlashes` — a path without the `./` in front, or without the
  slashes behind.
-/

namespace LintGate
namespace Path

open Text

/-- Whether a path starts at the root. -/
def isAbsolute (p : List Char) : Bool := p.head? == some '/'

/-- The pieces of a path that count. -/
def significant (ps : List (List Char)) : List (List Char) :=
  ps.filter fun p => p != [] && p != ['.']

/-- The components of a path: the root for an absolute path, a dot if a relative path
starts with one, and the pieces that count. -/
def components (p : List Char) : List (List Char) :=
  if isAbsolute p then ['/'] :: significant (splitOn '/' p)
  else
    match splitOn '/' p with
    | ['.'] :: ps => ['.'] :: significant ps
    | ps => significant ps

/-- A path seen from a directory. -/
def joinChars (base p : List Char) : List Char :=
  if isAbsolute p then p
  else if base.isEmpty || base.getLast? == some '/' then base ++ p
  else base ++ '/' :: p

/-- A path seen from a directory: the path itself if it is absolute. -/
def join (base p : String) : String := String.ofList (joinChars base.toList p.toList)

/-- The components of a path after those of a directory; `none` if the path is not
below it. -/
def relative? (root p : List Char) : Option (List (List Char)) :=
  dropInit? (components root) (components p)

/-- The last component, if it is a name. -/
def fileName? (p : List Char) : Option (List Char) :=
  match (components p).getLast? with
  | none => none
  | some n => if n = ['/'] ∨ n = ['.'] ∨ n = ['.', '.'] then none else some n

/-- What follows the last dot of a name.  A dot that a name starts with makes no
extension. -/
def nameExtension? (name : List Char) : Option (List Char) :=
  let tail := name.reverse.takeWhile (· != '.')
  if tail.length + 1 < name.length then some tail.reverse else none

/-- The extension of the file that a path names. -/
def extension? (p : List Char) : Option (List Char) := (fileName? p).bind nameExtension?

/-- A path without the `./` it starts with, however often. -/
def dropDots : List Char → List Char
  | '.' :: '/' :: cs => dropDots cs
  | cs => cs

@[simp] theorem dropDots_dot (cs : List Char) : dropDots ('.' :: '/' :: cs) = dropDots cs := by
  simp [dropDots]

@[simp] theorem dropDots_nil : dropDots [] = [] := rfl

/-- A path without the slashes it ends with. -/
def dropSlashes (cs : List Char) : List Char := (cs.reverse.dropWhile (· == '/')).reverse

end Path
end LintGate
