import LintGate.Fault
import LintGate.Tool.Release

/-!
# Where the tool comes from

An executable of the host counts if it reports the pinned version; else a container
if its runtime can be reached; else a released binary if there is one for the
platform.

## Main definitions

* `Origin`, `ToolStatus`, `ToolStatus.matchesVersion` — what is known of an executable.
* `ToolFacts` — what is known of a machine.
* `ToolSource` — the sources.
* `Probe`, `Probe.select`, `selectSource` — the choice, from questions and from facts.
-/

namespace LintGate

/-- Where an executable was found. -/
inductive Origin
  | systemPath
  | downloaded
  | notFound
  deriving DecidableEq, Repr

/-- What is known of an executable. -/
structure ToolStatus where
  available : Bool
  path : Option String
  version : Option String
  origin : Origin
  deriving DecidableEq, Repr

namespace ToolStatus

/-- An executable that is not there. -/
def absent : ToolStatus := ⟨false, none, none, .notFound⟩

/-- Whether the executable is there in exactly this version. -/
def matchesVersion (s : ToolStatus) (required : String) : Bool :=
  s.available && s.version == some required

end ToolStatus

/-- What is known of a machine. -/
structure ToolFacts where
  host : ToolStatus
  runtimeReachable : Bool
  platform : Option Platform
  /-- The machine as it is named to the user. -/
  machine : String
  deriving DecidableEq, Repr

/-- Where the tool comes from. -/
inductive ToolSource
  | hostBinary
  | sandbox
  | download (platform : Platform)
  deriving DecidableEq, Repr

/-- The source as it is named to the user. -/
def ToolSource.describe : ToolSource → String
  | .hostBinary => "host binary"
  | .sandbox => "sandbox container"
  | .download p => "downloaded release (" ++ p.label ++ ")"

/-- The fault of a machine without any source. -/
def noSource (c : Config) (machine : String) : Fault :=
  .toolUnavailable
    (c.tool.name ++ " " ++ c.tool.version ++ " is not installed, " ++ c.sandbox.runtime ++
      " is not reachable, and no release is published for " ++ machine)

/-! ### The choice -/

/-- The questions that the choice depends on.  The machine may answer them anew each
time. -/
structure Probe (m : Type → Type) where
  /-- What is known of an executable of the host. -/
  host : String → m ToolStatus
  /-- Whether a container runtime can be reached. -/
  runtimeReachable : String → m Bool
  platform : m (Option Platform)
  /-- The machine as it is named to the user. -/
  machine : String

namespace Probe

variable {m : Type → Type} [Monad m]

/-- The choice among the sources of a machine.  What comes later in the order is asked
only if it is needed. -/
def select (p : Probe m) (c : Config) : m (Except Fault ToolSource) := do
  if (← p.host c.tool.name).version = some c.tool.version then return .ok .hostBinary
  if ← p.runtimeReachable c.sandbox.runtime then return .ok .sandbox
  match ← p.platform with
  | some platform => return .ok (.download platform)
  | none => return .error (noSource c p.machine)

/-- All answers, each asked for once. -/
def facts (p : Probe m) (c : Config) : m ToolFacts := do
  let host ← p.host c.tool.name
  let reachable ← p.runtimeReachable c.sandbox.runtime
  return ⟨host, reachable, ← p.platform, p.machine⟩

/-- The probe that always gives the answers of given facts. -/
def ofFacts (f : ToolFacts) : Probe m where
  host _ := pure f.host
  runtimeReachable _ := pure f.runtimeReachable
  platform := pure f.platform
  machine := f.machine

end Probe

/-- The choice from facts. -/
def selectSource (f : ToolFacts) (c : Config) : Except Fault ToolSource :=
  Id.run ((Probe.ofFacts f).select c)

/-- The order of the choice. -/
theorem selectSource_eq (f : ToolFacts) (c : Config) :
    selectSource f c =
      if f.host.version = some c.tool.version then .ok .hostBinary
      else if f.runtimeReachable then .ok .sandbox
      else
        match f.platform with
        | some p => .ok (.download p)
        | none => .error (noSource c f.machine) := by
  unfold selectSource Probe.select Probe.ofFacts
  by_cases h : f.host.version = some c.tool.version <;> by_cases k : f.runtimeReachable = true <;>
    cases hp : f.platform <;> simp [h, k, Id.run, pure, bind]

end LintGate
