import LintGate.Config
import LintGate.Program.Basic
import LintGate.Script

/-!
# Finding scripts

A directory tree is walked depth first, the entries of a directory in the order of
their names.  Files with a configured extension that the path rules leave are
*candidates*; an oracle then says of each whether version control ignores it.

Directories named `.git` and those that the rules prune are not entered.

## Main definitions

* `Entry.sorted` — a tree with the entries of each directory in order.
* `Discovery.candidates` — the candidates of a tree, in the order of the walk.
* `Discovery.sift` — the candidates that are not ignored.
* `Discovery.find` — both.
-/

namespace LintGate

open Text

namespace Entry

/-- The name of an entry. -/
def name : Entry → List Char
  | file n | other n | directory n _ => n

/-- Puts an entry in front of the first whose name does not come before its own. -/
def insert (e : Entry) : List Entry → List Entry
  | [] => [e]
  | f :: fs =>
    if Before (String.ofList f.name) (String.ofList e.name) then f :: insert e fs
    else e :: f :: fs

mutual

/-- The tree with the entries of each directory in order. -/
def sorted : Entry → Entry
  | file n => file n
  | other n => other n
  | directory n es => directory n (sortedAll es)

/-- Entries in order, each with its own entries in order. -/
def sortedAll : List Entry → List Entry
  | [] => []
  | e :: es => insert e.sorted (sortedAll es)

end

end Entry

namespace Discovery

/-- What decides whether a file is a candidate. -/
structure Filter where
  extensions : List String
  rules : PathRules
  deriving DecidableEq, Repr

namespace Filter

/-- The filter of a configuration. -/
def ofConfig? (c : DiscoveryConfig) : Except Fault Filter :=
  match PathRules.ofTexts? c.excluded c.included with
  | .ok rules => .ok ⟨c.extensions, rules⟩
  | .error f => .error (.ofRule f)

/-- Whether an extension is one of a script. -/
def hasExtension (f : Filter) (ext : Option (List Char)) : Bool :=
  ext.any fun e => f.extensions.contains (String.ofList e)

/-- Whether the rules leave a script. -/
def eligible (f : Filter) (s : ScriptPath) : Bool := f.rules.eligible s.components

/-- Whether a directory is not entered. -/
def skips (f : Filter) (names : List (List Char)) (name : List Char) : Bool :=
  name == ".git".toList || f.rules.prunes (ScriptPath.ofNames names).components

end Filter

mutual

/-- The candidates in an entry below a directory; `trail` are the names that lead to
the directory. -/
def visit (f : Filter) (trail : List (List Char)) : Entry → List ScriptPath
  | .file name =>
    let s := ScriptPath.ofNames (trail ++ [name])
    if f.hasExtension (Path.nameExtension? name) && f.eligible s then [s] else []
  | .other _ => []
  | .directory name es =>
    if f.skips (trail ++ [name]) name then [] else visitAll f (trail ++ [name]) es

/-- The candidates in entries of a directory. -/
def visitAll (f : Filter) (trail : List (List Char)) : List Entry → List ScriptPath
  | [] => []
  | e :: es => visit f trail e ++ visitAll f trail es

end

/-- The candidates of a tree.  The root itself is always entered; a file in its place
has the empty path. -/
def candidates (f : Filter) (root : Entry) : List ScriptPath :=
  match root.sorted with
  | .directory _ es => visitAll f [] es
  | .file name =>
    let s := ScriptPath.ofNames []
    if f.hasExtension (Path.nameExtension? name) && f.eligible s then [s] else []
  | .other _ => []

/-- The scripts that are not ignored.  The oracle is asked in turn, and its first fault
is the last thing asked. -/
def sift {m : Type → Type} [Monad m] (isIgnored : ScriptPath → ExceptT Fault m Bool) :
    List ScriptPath → ExceptT Fault m (List ScriptPath)
  | [] => pure []
  | s :: ss => do
    if ← isIgnored s then sift isIgnored ss
    else return s :: (← sift isIgnored ss)

/-- The scripts of a tree; where there is no tree, there are none. -/
def find {m : Type → Type} [Monad m] (f : Filter)
    (isIgnored : ScriptPath → ExceptT Fault m Bool) (root : Option Entry) :
    ExceptT Fault m (List ScriptPath) :=
  sift isIgnored ((root.map (candidates f)).getD [])

end Discovery
end LintGate
