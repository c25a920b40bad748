import LintGate.Lint.Run
import LintGate.Sandbox
import LintGate.Script
import LintGate.Tool.Install

/-!
# How the tool is run

The source of the tool is chosen once a run and then provided: nothing is to be done
for an executable of the host, a container is started, or a release is installed.  A
source that was chosen and cannot be provided is a fault; no other is tried.

## Main definitions

* `lintOptions` — the options of the tool.
* `LocalTool`, `Strategy` — what was provided.
* `Strategy.provide` — choosing a source and providing it.
* `Strategy.lint` — linting one script.
* `Strategy.release` — giving back what was provided.
-/

namespace LintGate

/-- The options of the tool. -/
def lintOptions (disabled : List UInt32) : List String :=
  "--external-sources" ::
    ((if disabled.isEmpty then []
      else ["--exclude=" ++ Text.join "," (disabled.map fun c => toString c.toNat)]) ++
    ["--color=auto"])

/-- An executable on this machine, run from the repository's root. -/
structure LocalTool where
  executable : String
  root : String
  args : List String
  deriving DecidableEq, Repr

/-- How the tool is run for the rest of a run. -/
inductive Strategy
  | hostBinary (t : LocalTool)
  | sandbox (s : Sandbox) (args : List String)
  | downloaded (t : LocalTool)
  deriving DecidableEq, Repr

namespace Strategy

/-- The source as it is named to the user. -/
def sourceName : Strategy → String
  | .hostBinary _ => "host binary"
  | .sandbox .. => "sandbox container"
  | .downloaded _ => "downloaded binary"

/-- The executable on this machine, if there is one. -/
def executable? : Strategy → Option String
  | .hostBinary t | .downloaded t => some t.executable
  | .sandbox .. => none

/-- The container, if there is one. -/
def container? : Strategy → Option Container
  | .sandbox s _ => some s.container
  | _ => none

/-- Provides a source. -/
def ofSource (installer : Installer) (c : Config) (root : String) : ToolSource → Action Strategy
  | .hostBinary => return .hostBinary ⟨c.tool.name, root, lintOptions c.tool.disabledRules⟩
  | .sandbox => do
    let s ← Sandbox.create c.sandbox c.tool root
    return .sandbox s (lintOptions c.tool.disabledRules)
  | .download p => do
    let executable ← installer.ensure c.tool p
    return .downloaded ⟨executable, root, lintOptions c.tool.disabledRules⟩

/-- Chooses a source and provides it. -/
def provide (probe : Probe Program) (installer : Installer) (c : Config) (root : String) :
    Action Strategy := do
  let source ← ExceptT.mk (probe.select c)
  ofSource installer c root source

/-- Runs an executable of this machine on a script. -/
def runLocal (t : LocalTool) (s : ScriptPath) : Program (Except OsFault Output) :=
  .command t.executable (t.args ++ [s.text]) (some t.root)

/-- Lints one script.  A container whose removal was claimed is not used any more. -/
def lint (strategy : Strategy) (s : ScriptPath) : Action LintOutcome := do
  let o ←
    match strategy with
    | .hostBinary t | .downloaded t =>
      Action.trial (runLocal t s) fun e => .toolInvocation s.text e.message
    | .sandbox box args => do
      if ← Action.ask (.registry (.isRemoved box.container)) then
        throw (.toolInvocation s.text ("sandbox " ++ box.container.name ++ " was torn down"))
      Action.trial (box.exec args s.text) fun e => .toolInvocation s.text e.message
  return .ofOutput o

/-- Lints many scripts. -/
def lintAll (strategy : Strategy) (jobs : Nat) (ss : List ScriptPath) : Action Outcomes :=
  ExceptT.mk (LintRun.lint jobs (fun s => (strategy.lint s).run) ss)

/-- Gives back what was provided: the container is held in one place less. -/
def release (strategy : Strategy) : Program Unit :=
  match strategy.container? with
  | some c => c.drop
  | none => .done ()

end Strategy
end LintGate
