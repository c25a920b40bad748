import LintGate.Config
import LintGate.Path

/-!
# Releases of the tool

## Main definitions

* `Platform` — the platforms that releases are published for.
* `releaseName`, `releaseUrl` — what a release unpacks to, and where it is found.
* `binaryPath` — where the executable of the pinned release is kept.
-/

namespace LintGate

/-- A platform that releases are published for. -/
inductive Platform
  | linuxX86
  | linuxArm64
  | linuxArm
  | macX86
  deriving DecidableEq, Repr

namespace Platform

/-- The platform of a machine, by the names of its system and processor. -/
def ofMachine? : String → String → Option Platform
  | "linux", "x86_64" => some .linuxX86
  | "linux", "aarch64" => some .linuxArm64
  | "linux", "arm" => some .linuxArm
  | "macos", "x86_64" => some .macX86
  | _, _ => none

/-- The system's name in a release. -/
def os : Platform → String
  | .linuxX86 | .linuxArm64 | .linuxArm => "linux"
  | .macX86 => "darwin"

/-- The processor's name in a release. -/
def arch : Platform → String
  | .linuxX86 | .macX86 => "x86_64"
  | .linuxArm64 => "aarch64"
  | .linuxArm => "armv6hf"

/-- The platform as a part of a release's name. -/
def label (p : Platform) : String := p.os ++ "." ++ p.arch

end Platform

namespace ToolConfig

/-- The directory that a release unpacks to. -/
def releaseName (t : ToolConfig) : String := t.name ++ "-v" ++ t.version

/-- The base of all releases, without the slashes it ends with. -/
def releaseBase (t : ToolConfig) : String :=
  String.ofList (Path.dropSlashes t.releaseUrl.toList)

/-- Where the release for a platform is downloaded from. -/
def releaseArchive (t : ToolConfig) (p : Platform) : String :=
  t.releaseBase ++ "/v" ++ t.version ++ "/" ++ t.releaseName ++ "." ++ p.label ++ ".tar.xz"

/-- The directory of the pinned release below an install root. -/
def releaseDir (t : ToolConfig) (root : String) : String := Path.join root t.releaseName

/-- The executable of the pinned release below an install root. -/
def binaryPath (t : ToolConfig) (root : String) : String := Path.join (t.releaseDir root) t.name

end ToolConfig
end LintGate
