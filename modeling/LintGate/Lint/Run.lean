import LintGate.Fault
import LintGate.Lint.Problems

/-!
# Linting many scripts

With one job the scripts are linted in turn up to the first fault.  With several jobs,
workers take scripts up and finish them in any order.  Scripts that were taken up are
finished, but after a fault those that still wait may be left; in the end there are all
outcomes or one of the faults.

## Main definitions

* `Results`, `Results.collect` — what was found of each script, and what it comes to.
* `LintRun.inTurn`, `LintRun.all`, `LintRun.lint` — linting with one job and with
  several.
* `Crew`, `Crew.Move`, `Crew.play` — every order in which several jobs can go on.
-/

namespace LintGate

/-- What was found of each script, in the order in which it was found. -/
abbrev Results := List (ScriptPath × Except Fault LintOutcome)

namespace Results

/-- The outcomes of all scripts, or the first fault. -/
def pairs : Results → Except Fault (List (ScriptPath × LintOutcome))
  | [] => .ok []
  | (_, .error f) :: _ => .error f
  | (s, .ok o) :: rs => (pairs rs).map ((s, o) :: ·)

/-- The table of all outcomes, or the first fault. -/
def collect (rs : Results) : Except Fault Outcomes := rs.pairs.map OrderedMap.ofList

end Results

namespace LintRun

variable {m : Type → Type} [Monad m]

/-- Lints scripts in turn up to the first fault. -/
def inTurn (lint : ScriptPath → m (Except Fault LintOutcome)) : List ScriptPath → m Results
  | [] => pure []
  | s :: ss => do
    match ← lint s with
    | .error f => return [(s, .error f)]
    | .ok o => return (s, .ok o) :: (← inTurn lint ss)

/-- Lints all scripts. -/
def all (lint : ScriptPath → m (Except Fault LintOutcome)) : List ScriptPath → m Results
  | [] => pure []
  | s :: ss => do
    let x ← lint s
    return (s, x) :: (← all lint ss)

/-- Lints scripts with a number of jobs. -/
def lint (jobs : Nat) (lint : ScriptPath → m (Except Fault LintOutcome)) (ss : List ScriptPath) :
    m (Except Fault Outcomes) := do
  return (← if jobs ≤ 1 then inTurn lint ss else all lint ss).collect

end LintRun

/-! ### Several jobs -/

/-- Several jobs at work: scripts that wait, scripts that are being linted, and what
was found. -/
structure Crew where
  waiting : List ScriptPath
  busy : List ScriptPath
  found : Results

namespace Crew

/-- What can happen next: a waiting script is taken up, or one that is being linted is
finished. -/
inductive Move
  | take (i : Nat)
  | finish (i : Nat)
  deriving DecidableEq, Repr

/-- All scripts wait. -/
def start (ss : List ScriptPath) : Crew := ⟨ss, [], []⟩

/-- Does a move, if it is possible with a number of jobs. -/
def move? (jobs : Nat) (lint : ScriptPath → Except Fault LintOutcome) (c : Crew) :
    Move → Option Crew
  | .take i =>
    if c.busy.length < jobs then
      c.waiting[i]?.map fun s => { c with waiting := c.waiting.eraseIdx i, busy := c.busy ++ [s] }
    else none
  | .finish i =>
    c.busy[i]?.map fun s =>
      { c with busy := c.busy.eraseIdx i, found := c.found ++ [(s, lint s)] }

/-- Does moves one after another. -/
def play (jobs : Nat) (lint : ScriptPath → Except Fault LintOutcome) (c : Crew) :
    List Move → Option Crew
  | [] => some c
  | x :: xs => (c.move? jobs lint x).bind fun c => play jobs lint c xs

/-- Whether the work is over: nothing is being linted, and nothing waits unless there
was a fault. -/
def isOver (c : Crew) : Bool :=
  c.busy.isEmpty && (c.waiting.isEmpty || c.found.any fun r => !r.2.isOk)

end Crew
end LintGate
