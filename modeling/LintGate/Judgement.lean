import LintGate.Discovery
import LintGate.Lint.Run
import LintGate.Report

/-!
# Judging a list of files

Files that are named one by one are judged like those of a repository: the path rules
leave some of them, these are linted, and the outcomes are held against the allow-list.

## Main definitions

* `Report.ofOutcomes` — the report on scripts that were linted.
* `judge` — the report on files, given a linter.
-/

namespace LintGate

/-- The report on the scripts found, with the allow-list as it is to be named. -/
def Report.ofOutcomes (found : List ScriptPath) (allowed : AllowList) (outcomes : Outcomes)
    (allowListName : String) : Report :=
  ⟨classify found allowed outcomes, found.length, allowListName⟩

/-- The report on files, by a linter that may be asked in a monad.  The first fault, of
the rules and then of the linter, ends it. -/
def judge {m : Type → Type} [Monad m] (allowed : AllowList) (c : DiscoveryConfig)
    (files : List ScriptPath) (jobs : Nat)
    (lint : ScriptPath → m (Except Fault LintOutcome)) : ExceptT Fault m Report := do
  let filter ← ExceptT.mk (pure (Discovery.Filter.ofConfig? c))
  let found := files.filter filter.eligible
  let outcomes ← ExceptT.mk (LintRun.lint jobs lint found)
  return .ofOutcomes found allowed outcomes allowed.path

end LintGate
