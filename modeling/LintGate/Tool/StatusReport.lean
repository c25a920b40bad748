import LintGate.Json
import LintGate.Text.Style
import LintGate.Tool.Source

/-!
# The status of the tool

## Main definitions

* `StatusReport`, `StatusReport.ofFacts` — which source a run would use, and why.
* `StatusReport.console`, `StatusReport.toJson` — the report for people and as JSON.
-/

namespace LintGate

open Text

/-- Which source a run would use, and why. -/
structure StatusReport where
  tool : String
  requiredVersion : String
  host : ToolStatus
  runtime : String
  runtimeReachable : Bool
  image : String
  platform : Option Platform
  /-- The released binary of the pinned version, if it was downloaded before. -/
  cachedDownload : Option String
  selected : Option ToolSource
  unavailableReason : Option String
  deriving DecidableEq, Repr

namespace StatusReport

/-- The report on a machine. -/
def ofFacts (c : Config) (f : ToolFacts) (cached : Option String) : StatusReport where
  tool := c.tool.name
  requiredVersion := c.tool.version
  host := f.host
  runtime := c.sandbox.runtime
  runtimeReachable := f.runtimeReachable
  image := c.tool.image
  platform := f.platform
  cachedDownload := cached
  selected := (selectSource f c).toOption
  unavailableReason :=
    match selectSource f c with
    | .ok _ => none
    | .error e => some e.message

/-! ### For people -/

/-- What is said of the host's executable. -/
def hostText (r : StatusReport) (colored : Bool) : String :=
  match r.host.origin, r.host.version with
  | .notFound, _ | _, none => paint colored .dimmed "not found"
  | _, some v =>
    (if r.host.matchesVersion r.requiredVersion then paint colored .green ("v" ++ v)
      else paint colored .yellow ("v" ++ v) ++ " (need v" ++ r.requiredVersion ++ ")") ++
      match r.host.path with
      | some p => " at " ++ p
      | none => ""

/-- What is said of the container runtime. -/
def runtimeText (r : StatusReport) (colored : Bool) : String :=
  r.runtime ++ " runtime: " ++
    (if r.runtimeReachable then paint colored .green "reachable"
      else paint colored .dimmed "unreachable") ++
    " (" ++ r.image ++ ")"

/-- What is said of the platform. -/
def platformText (r : StatusReport) (colored : Bool) : String :=
  match r.platform with
  | some p => p.label
  | none => paint colored .dimmed "unsupported"

/-- What is said of an earlier download. -/
def cachedText (r : StatusReport) (colored : Bool) : String :=
  match r.cachedDownload with
  | some p => p
  | none => paint colored .dimmed "none"

/-- What is said of the choice. -/
def choiceText (r : StatusReport) (colored : Bool) : String :=
  match r.selected, r.unavailableReason with
  | some s, _ => "\n✅ verify would use the " ++ s.describe ++ "\n"
  | none, some reason => "\n❌ " ++ paint colored .red reason ++ "\n"
  | none, none => ""

/-- The report for people. -/
def console (r : StatusReport) (colored : Bool) : String :=
  "\n🔧 Tool Status Report\n" ++ String.ofList (List.replicate 50 '=') ++ "\n" ++
    "Required: " ++ r.tool ++ " " ++ r.requiredVersion ++ "\n\n" ++
    "  • host binary: " ++ r.hostText colored ++ "\n" ++
    "  • " ++ r.runtimeText colored ++ "\n" ++
    "  • release platform: " ++ r.platformText colored ++ "\n" ++
    "  • cached download: " ++ r.cachedText colored ++ "\n" ++
    r.choiceText colored ++ "\n"

/-! ### As JSON -/

/-- A platform as a JSON value. -/
def platformJson (p : Platform) : Json := .object [("os", .text p.os), ("arch", .text p.arch)]

/-- A source as a JSON value. -/
def sourceJson : ToolSource → Json
  | .hostBinary => .text "HostBinary"
  | .sandbox => .text "Sandbox"
  | .download p => .object [("Download", platformJson p)]

/-- The name of an origin. -/
def originName : Origin → String
  | .systemPath => "SystemPath"
  | .downloaded => "Downloaded"
  | .notFound => "NotFound"

/-- What is known of an executable as a JSON value. -/
def statusJson (s : ToolStatus) : Json :=
  .object
    [("available", .bool s.available), ("path", .ofOption s.path), ("version", .ofOption s.version),
      ("installation_source", .text (originName s.origin))]

/-- The report as a JSON value. -/
def toJson (r : StatusReport) : Json :=
  .object
    [("tool", .text r.tool), ("required_version", .text r.requiredVersion),
      ("host", statusJson r.host), ("runtime", .text r.runtime),
      ("runtime_reachable", .bool r.runtimeReachable), ("image", .text r.image),
      ("platform", (r.platform.map platformJson).getD .null),
      ("cached_download", .ofOption r.cachedDownload),
      ("selected", (r.selected.map sourceJson).getD .null),
      ("unavailable_reason", .ofOption r.unavailableReason)]

end StatusReport
end LintGate
