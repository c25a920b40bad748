import LintGate.Json
import LintGate.Lint.Problems
import LintGate.Text.Style

/-!
# The verdict and its report

For people, a run that passes is confirmed in one line on the standard output, and
problems are listed on the standard error.  As JSON, either is one document on the
standard output.

## Main definitions

* `Verdict`, `Verdict.exitCode` — passed or failed.
* `Streams` — what is written to the two standard streams.
* `Format` — for people or as JSON.
* `Report`, `Report.render` — what is reported, and how.
-/

namespace LintGate

open Text

/-- Whether a run passed. -/
inductive Verdict
  | passed
  | failed
  deriving DecidableEq, Repr

namespace Verdict

/-- A run passes if it found no problems. -/
def ofProblems (p : Problems) : Verdict := if p.isClean then .passed else .failed

/-- The exit code of a run that reached a verdict. -/
def exitCode : Verdict → Nat
  | .passed => 0
  | .failed => 1

@[simp] theorem exitCode_passed : exitCode .passed = 0 := rfl

@[simp] theorem exitCode_failed : exitCode .failed = 1 := rfl

end Verdict

/-- What is written to the standard output and the standard error. -/
structure Streams where
  out : String
  err : String
  deriving DecidableEq, Repr

/-- Who reads a report. -/
inductive Format
  | human
  | json
  deriving DecidableEq, Repr

/-- What a run reports. -/
structure Report where
  problems : Problems
  /-- The number of scripts found. -/
  checked : Nat
  /-- The allow-list as the configuration names it. -/
  allowList : String

namespace Report

/-! ### For people -/

/-- A text and the end of its line. -/
def line (s : String) : String := s ++ "\n"

/-- The failing scripts, each with its diagnostic. -/
def failuresText (r : Report) (colored : Bool) : String :=
  if r.problems.unexpectedFailures.isEmpty then ""
  else
    line (paint colored .redBold
        ("❌ " ++ toString r.problems.unexpectedFailures.size ++ " script(s) fail ShellCheck:")) ++
      String.join
        (r.problems.unexpectedFailures.entries.map fun e => line (trimEnd e.2) ++ line "") ++
      line "Please review the above warnings and fix them." ++
      line ("If a warning does not make sense, exempt it with a `# shellcheck disable=SCxxxx` " ++
        "comment, or (with your reviewer's approval) add the file to " ++ r.allowList ++ ".") ++
      line ""

/-- Entries to take off the allow-list, under a heading. -/
def removalsText (r : Report) (colored : Bool) (heading : String) (s : OrderedSet ScriptPath) :
    String :=
  if s.isEmpty then ""
  else
    line (paint colored .yellowBold ("⚠️  " ++ toString s.size ++ heading)) ++
      String.join (s.toList.map fun e => line ("  " ++ e.text)) ++
      line ("Please remove them from " ++ r.allowList ++ ".") ++ line ""

/-- All problems, the unexpected failures first. -/
def problemsText (r : Report) (colored : Bool) : String :=
  r.failuresText colored ++
    r.removalsText colored " allow-listed script(s) now pass ShellCheck:" r.problems.stalePasses ++
    r.removalsText colored " allow-list entr(ies) no longer exist:" r.problems.staleEntries

/-- The confirmation of a run without problems. -/
def confirmation (r : Report) : String :=
  line ("✅ All " ++ toString r.checked ++ " shell scripts pass ShellCheck or are listed in " ++
    r.allowList)

/-! ### As JSON -/

/-- Script paths as an array. -/
def scriptsJson (s : OrderedSet ScriptPath) : Json := .array (s.toList.map fun e => .text e.text)

/-- The report as a JSON value. -/
def toJson (r : Report) : Json :=
  .object
    [("passed", .bool r.problems.isClean),
      ("counts", .object
        [("checked", .number r.checked),
          ("unexpected_failures", .number r.problems.unexpectedFailures.size),
          ("stale_passes", .number r.problems.stalePasses.size),
          ("stale_entries", .number r.problems.staleEntries.size)]),
      ("unexpected_failures", .object
        (r.problems.unexpectedFailures.entries.map fun e => (e.1.text, .text e.2))),
      ("stale_passes", scriptsJson r.problems.stalePasses),
      ("stale_entries", scriptsJson r.problems.staleEntries)]

/-! ### The report -/

/-- The verdict of the report. -/
def verdict (r : Report) : Verdict := .ofProblems r.problems

/-- What is written of the report. -/
def render (r : Report) (format : Format) (colored : Bool) : Streams :=
  match format, r.verdict with
  | .json, _ => ⟨r.toJson.document, ""⟩
  | .human, .passed => ⟨r.confirmation, ""⟩
  | .human, .failed => ⟨"", r.problemsText colored⟩

end Report
end LintGate
