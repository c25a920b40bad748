import LintGate.Program.Basic
import LintGate.Text.Lines
import LintGate.Tool.Source
import LintGate.Tool.Surroundings
import LintGate.Tool.Version

/-!
# Detecting the tool

## Main definitions

* `Detect.tool`, `Detect.file` — what is known of an executable by its name or its path.
* `Detect.runtimeReachable` — whether a container runtime answers.
* `Detect.probe` — the probe of the machine the gate runs on.
-/

namespace LintGate
namespace Detect

open Text

/-- The version that an executable reports. -/
def version? (executable : String) : Program (Option String) := do
  match ← Program.command executable ["--version"] none with
  | .error _ => return none
  | .ok o =>
    if o.status.isSuccess then return (VersionEntry.find? o.outText).map String.ofList
    else return none

/-- The first line of a text without its outer blanks, unless it is blank. -/
def firstLine? (cs : List Char) : Option String :=
  match lines cs with
  | [] => none
  | l :: _ => if isAllBlank l then none else some (String.ofList (strip l))

/-- Where an executable is found on the search path. -/
def locate? (name : String) : Program (Option String) := do
  match ← Program.command "which" [name] none with
  | .error _ => return none
  | .ok o => return if o.status.isSuccess then firstLine? o.outText else none

/-- What is known of an executable by its name. -/
def tool (name : String) : Program ToolStatus := do
  match ← version? name with
  | none => return .absent
  | some v => return ⟨true, some ((← locate? name).getD name), some v, .systemPath⟩

/-- What is known of an executable by its path. -/
def file (path : String) : Program ToolStatus := do
  if ← Program.send (.isFile path) then
    match ← version? path with
    | none => return .absent
    | some v => return ⟨true, some path, some v, .downloaded⟩
  else return .absent

/-- Whether a container runtime answers. -/
def runtimeReachable (runtime : String) : Program Bool := do
  match ← Program.command runtime ["info"] none with
  | .error _ => return false
  | .ok o => return o.status.isSuccess

/-- The probe of the machine the gate runs on. -/
def probe (s : Surroundings) : Probe Program where
  host := tool
  runtimeReachable := runtimeReachable
  platform := pure s.platform?
  machine := s.machine

end Detect
end LintGate
