import LintGate.CommandLine
import LintGate.Config.Read
import LintGate.Discovery.Git
import LintGate.Judgement
import LintGate.Strategy
import LintGate.Tool.StatusReport

/-!
# A run of the gate

A run that verifies a repository goes through stages: its root, the configuration, the
allow-list, the scripts, the tool, the outcomes and the report.  A stage starts only
after those before it succeeded.  The container is gone before anything is reported.

## Main definitions

* `resolveRoot`, `loadConfig`, `loadAllowList` — the stages that only read files.
* `Verify.run` — a run that verifies a repository.
* `ToolStatusTask.run` — a run that reports where the tool would come from.
* `Invocation.perform` — a run by its command line.
* `Gate.pipeline`, `Gate.conclude` — the run of a process, and how it ends.
* `Gate.interrupt` — what an interrupt does.
-/

namespace LintGate

/-- The absolute path of a repository's root. -/
def resolveRoot (path : String) : Action String :=
  Action.trial (.send (.canonical path)) fun e => .discovery path e.message

/-- The text of a file. -/
def readText (path : String) : Program (Except OsFault String) :=
  (Program.send (.readFile path)).bind fun
    | .error e => .done (.error e)
    | .ok bytes =>
      match Text.decode? bytes with
      | some cs => .done (.ok (String.ofList cs))
      | none => .done (.error .notText)

/-! ### Configuration -/

/-- Reads a configuration file. -/
def readConfig (path : String) : Action Config := do
  let text ← Action.trial (readText path) fun e => .config (.unreadable path e)
  match Config.ofText text with
  | .ok c => return c
  | .error reason => throw (.config (.malformed path reason))

/-- The configuration file of a repository. -/
def localConfigPath (root : String) : String := Path.join root Config.fileName

/-- The user's configuration; a file that cannot be read is passed over. -/
def loadGlobalConfig (s : Surroundings) : Program Config :=
  match s.home with
  | none => .done {}
  | some home => do
    let path := Path.join home Config.fileName
    if ← Program.send (.isThere path) then
      match ← (readConfig path).run with
      | .ok c => return c
      | .error _ => return {}
    else return {}

/-- The configuration: the file that is asked for, else the repository's own, else the
user's.  One file alone decides. -/
def loadConfig (s : Surroundings) (explicit : Option String) (root : String) : Action Config := do
  match explicit with
  | some path => readConfig path
  | none =>
    if ← Action.ask (.isThere (localConfigPath root)) then readConfig (localConfigPath root)
    else ExceptT.lift (loadGlobalConfig s)

/-! ### Allow-list -/

/-- Loads an allow-list; one that is not there is empty. -/
def loadAllowList (path : String) : Action AllowList := do
  match ← ExceptT.lift (readText path) with
  | .ok text => Action.ofExcept (AllowList.parse path text)
  | .error .missing => Action.ofExcept (AllowList.parse path "")
  | .error e => throw (.os e)

/-! ### Verifying -/

/-- What a run is asked to verify. -/
structure VerifyOptions where
  path : String
  config : Option String
  jobs : Nat
  format : Format
  deriving DecidableEq, Repr

/-- Writes both streams, if the system lets it. -/
def Streams.write (s : Streams) : Action Unit := do
  Action.trial (Program.print .out s.out) .os
  Action.trial (Program.print .err s.err) .os

namespace Verify

/-- Provides the tool, lints the scripts, and gives the tool back. -/
def lintScripts (s : Surroundings) (c : Config) (root : String) (jobs : Nat)
    (scripts : List ScriptPath) : Action Outcomes := do
  let strategy ← Strategy.provide (Detect.probe s) (.ofSurroundings s) c root
  Action.always (strategy.lintAll jobs scripts) strategy.release

/-- The problems of a repository, and how many scripts were found. -/
def examine (s : Surroundings) (c : Config) (root : String) (jobs : Nat) : Action Report := do
  -- The order of the list is checked before any command is run.
  let allowed ← loadAllowList (Path.join root c.discovery.allowList)
  let scripts ← Git.findScripts root c.discovery
  let outcomes ← lintScripts s c root jobs scripts
  return .ofOutcomes scripts allowed outcomes c.discovery.allowList

/-- A run that verifies a repository. -/
def run (s : Surroundings) (o : VerifyOptions) : Action Verdict := do
  let root ← resolveRoot o.path
  let c ← loadConfig s o.config root
  let report ← examine s c root o.jobs
  (report.render o.format false).write
  return report.verdict

end Verify

/-! ### Status of the tool -/

namespace ToolStatusTask

/-- The report on a machine: each question is asked once, and the choice is made from
the answers that are reported. -/
def report (probe : Probe Program) (installer : Installer) (c : Config) :
    Program StatusReport := do
  let facts ← probe.facts c
  let cached ← installer.cached c.tool
  return .ofFacts c facts cached

/-- A run that reports where the tool would come from. -/
def run (s : Surroundings) (path : String) (config : Option String) (format : Format) :
    Action Unit := do
  let root ← resolveRoot path
  let c ← loadConfig s config root
  let r ← ExceptT.lift (report (Detect.probe s) (.ofSurroundings s) c)
  let text :=
    match format with
    | .human => r.console false
    | .json => r.toJson.document
  Action.trial (Program.print .out text) .os

end ToolStatusTask

/-! ### Whole runs -/

/-- A run by its command line.  A run that only reports on the tool always passes. -/
def Invocation.perform (s : Surroundings) (i : Invocation) : Action Verdict :=
  match i.task with
  | .verify path jobs format => Verify.run s ⟨path, i.config, jobs, format⟩
  | .toolStatus path format => do
    ToolStatusTask.run s path i.config format
    return .passed

namespace Gate

/-- The exit code of a run that ends with a fault. -/
def faultCode : Nat := 2

/-- The exit code of a run that is interrupted. -/
def interruptCode : Nat := 130

/-- What the user is told of a fault. -/
def faultText (f : Fault) : String := "Error: " ++ f.message ++ "\n" ++ f.remedy ++ "\n"

/-- The end of a process whose run was not interrupted: its exit code, after a fault was
told. -/
def conclude : Except Fault Verdict → Program Nat
  | .ok verdict => .done verdict.exitCode
  | .error f => (Program.send (.tell (faultText f))).bind fun _ => .done faultCode

/-- The run of a process that nothing interrupts. -/
def pipeline (s : Surroundings) (i : Invocation) : Program Nat :=
  (i.perform s).run.bind conclude

/-- What is said when a run is interrupted. -/
def interruptText : String := "\nInterrupted, removing sandbox containers...\n"

/-- What a process does when it is interrupted: it removes the containers that are
held.  The answer is whether it then has to wait for its run, since a container that is
still starting is removed once more by the run that started it. -/
def interrupt : Program Bool := do
  Program.send (.tell interruptText)
  return 0 < (← Container.removeAll)

end Gate
end LintGate
