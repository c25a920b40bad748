import LintGate.Address.Basic

/-!
# Paths of addresses

A path is a list of names with slashes in front of them.  The names for "here" and for "one
up" are gone through while the path is read, and do not stand in it any more.

## Main definitions

* `isHere`, `isUp` — the two names, dots being written plainly or escaped.
* `isDrive` — the name of a drive.
* `pathNames` — the names of a path, given the names as they are written.
* `pathText` — a path as it is shown.
-/

namespace LintGate
namespace Address

/-- A name with its escaped dots written plainly. -/
def plainDots : List Char → List Char
  | '%' :: '2' :: 'e' :: cs | '%' :: '2' :: 'E' :: cs => '.' :: plainDots cs
  | c :: cs => c :: plainDots cs
  | [] => []

/-- Whether a name stands for the directory itself. -/
def isHere (name : List Char) : Bool := plainDots name = ['.']

/-- Whether a name stands for the directory above. -/
def isUp (name : List Char) : Bool := plainDots name = ['.', '.']

/-- Whether a name is, or starts with, the letter of a drive. -/
def startsWithDrive : List Char → Bool
  | c :: mark :: rest =>
    c.isAlpha && (mark = ':' || mark = '|') && (rest.isEmpty || rest.head? = some '\\')
  | _ => false

/-- Whether a name is the letter of a drive. -/
def isDrive (name : List Char) : Bool := name.length = 2 && startsWithDrive name

/-- The names, last first, that one more name leads to.  No name leads up from a drive. -/
def enterName (kind : SchemeKind) (names : List (List Char)) (name : List Char) :
    List (List Char) :=
  if isUp name then
    match names with
    | n :: ns => if startsWithDrive n then names else ns
    | [] => []
  else if isHere name then names
  else if kind = .file ∧ names = [] ∧ isDrive name then [name.take 1 ++ [':']]
  else name :: names

/-- The names of a path.  If the path ends with "here" or "one up", it ends with a
slash. -/
def pathNames (kind : SchemeKind) (written : List (List Char)) : List (List Char) :=
  let names := (written.foldl (enterName kind) []).reverse
  let last := written.getLastD []
  if isUp last || isHere last then names ++ [[]] else names

/-- A path as it is shown.  Empty names at the start of a file's path are left out. -/
def pathText (kind : SchemeKind) (names : List (List Char)) : List Char :=
  let names := if kind = .file then dropEmpty names else names
  names.flatMap ('/' :: ·)
where
  /-- The names without empty ones in front, as long as another follows. -/
  dropEmpty : List (List Char) → List (List Char)
    | [] :: n :: ns => dropEmpty (n :: ns)
    | ns => ns

/-- Whether a file's path starts with a drive, so that its host does not count. -/
def namesDrive (names : List (List Char)) : Bool := names.head?.any isDrive

end Address
end LintGate
