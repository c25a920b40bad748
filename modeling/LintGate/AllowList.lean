import LintGate.Fault
import LintGate.Script

/-!
# The allow-list

The allow-list names the scripts that are known to fail, one path a line.  It has to
stand in order and without repetitions, so that two branches that change it merge
well.  A list out of order is a fault and is never mended here.

## Main definitions

* `AllowList.significantLines` — the lines that count.
* `AllowList.parse` — the list that a text spells.
-/

namespace LintGate

open Text

/-- The scripts that are known to fail. -/
structure AllowList where
  path : String
  entries : OrderedSet ScriptPath

namespace AllowList

/-- The lines of a text that are not blank, without their last blanks. -/
def significantLines (content : String) : List String :=
  (((lines content.toList).map stripEnd).filter fun l => !isAllBlank l).map String.ofList

/-- Reads an allow-list.  Its lines have to be in order as they are written, before
they are brought to the form of a script path. -/
def parse (path content : String) : Except Fault AllowList :=
  let found := significantLines content
  let expected := canonical found
  if found = expected then .ok ⟨path, OrderedSet.ofList (found.map ScriptPath.ofText)⟩
  else .error (.unsortedAllowList path expected)

/-- Whether a script is listed. -/
def contains (l : AllowList) (s : ScriptPath) : Bool := l.entries.contains s

/-- The number of scripts listed. -/
def size (l : AllowList) : Nat := l.entries.size

end AllowList
end LintGate
