import LintGate.AllowList
import LintGate.Lint.Outcome

/-!
# Problems of a run

The outcomes of a run are held against the allow-list.

| outcome | listed | result             |
|---------|--------|--------------------|
| failed  | no     | unexpected failure |
| failed  | yes    | accepted           |
| clean   | yes    | stale pass         |
| clean   | no     | accepted           |

A listed script that was not found is a stale entry.

## Main definitions

* `Outcomes` — the outcome of each script that was linted.
* `Problems`, `Problems.isClean` — what is wrong with a tree or its allow-list.
* `classify` — the problems of a run.
-/

namespace LintGate

/-- The outcome of each script that was linted. -/
abbrev Outcomes := OrderedMap ScriptPath LintOutcome

/-- What is wrong with a tree or its allow-list. -/
structure Problems where
  /-- Scripts that fail and are not listed, with their diagnostics. -/
  unexpectedFailures : OrderedMap ScriptPath String
  /-- Listed scripts that are clean. -/
  stalePasses : OrderedSet ScriptPath
  /-- Listed scripts that were not found. -/
  staleEntries : OrderedSet ScriptPath

namespace Problems

/-- No problems. -/
def none : Problems := ⟨.empty, .empty, .empty⟩

/-- Whether there are no problems. -/
def isClean (p : Problems) : Bool :=
  p.unexpectedFailures.isEmpty && p.stalePasses.isEmpty && p.staleEntries.isEmpty

/-- Adds what the outcome of one script tells. -/
def record (allowed : AllowList) (outcomes : Outcomes) (p : Problems) (s : ScriptPath) :
    Problems :=
  match outcomes.get? s, allowed.contains s with
  | some (.failed d), false => { p with unexpectedFailures := p.unexpectedFailures.insert s d }
  | some .clean, true => { p with stalePasses := p.stalePasses.insert s }
  | _, _ => p

end Problems

/-- Holds the outcomes of the scripts found against the allow-list.  A script without
an outcome is passed over. -/
def classify (found : List ScriptPath) (allowed : AllowList) (outcomes : Outcomes) : Problems :=
  { found.foldl (Problems.record allowed outcomes) .none with
    staleEntries := allowed.entries.filter fun e => !found.contains e }

end LintGate
