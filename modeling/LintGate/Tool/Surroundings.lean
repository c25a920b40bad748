import LintGate.Tool.Release

/-!
# The surroundings of a process

What the gate is told from outside of its command line: the directories of the user, and the
machine that it was built for.

## Main definitions

* `Surroundings` — what is told.
* `Surroundings.machine`, `Surroundings.platform?` — the machine, by its name and as one that
  releases are published for.
-/

namespace LintGate

/-- The surroundings of a process that the gate looks at. -/
structure Surroundings where
  /-- The user's home. -/
  home : Option String
  /-- The user's directory for what can be made anew. -/
  cache : Option String
  /-- The names of the system and of the processor that the gate was built for. -/
  system : String
  processor : String
  deriving DecidableEq, Repr

namespace Surroundings

/-- The machine as it is named to the user. -/
def machine (s : Surroundings) : String := s.system ++ "/" ++ s.processor

/-- The platform whose releases run on the machine, if there is one. -/
def platform? (s : Surroundings) : Option Platform :=
  Platform.ofMachine? s.system s.processor

end Surroundings
end LintGate
