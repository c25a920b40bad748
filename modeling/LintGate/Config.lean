/-!
# Configuration

## Main definitions

* `ToolConfig`, `DiscoveryConfig`, `SandboxConfig`, `Config` — what can be configured.
  Where a configuration leaves a setting out, the default of its field counts.
* `Config.fileName` — the name of a configuration file.
-/

namespace LintGate

/-- The pinned lint tool. -/
structure ToolConfig where
  /-- The executable, on the host and in the container. -/
  name : String := "shellcheck"
  /-- The version that the host's executable has to report. -/
  version : String := "0.7.2"
  /-- The image of the container, pinned by its digest. -/
  image : String :=
    "docker.io/koalaman/shellcheck-alpine:v0.7.2@sha256:" ++
      "ce6fd9cc808a47d1d121ba92c203ecc02e8ed78e0e4c412f7fca54c2e954526d"
  /-- Where releases are downloaded from, without the version. -/
  releaseUrl : String := "https://github.com/koalaman/shellcheck/releases/download"
  /-- The rules that are switched off: sources that are not found or not constant, and
  `which`. -/
  disabledRules : List UInt32 := [1090, 1091, 2230]
  deriving DecidableEq, Repr

/-- Which files are linted, and where the allow-list is. -/
structure DiscoveryConfig where
  /-- The extensions of shell scripts, without the dot. -/
  extensions : List String := ["sh"]
  /-- Rules for the paths that are not linted. -/
  excluded : List String := ["_*", ".git", "vendor", "third_party"]
  /-- Rules for the paths that are linted all the same. -/
  included : List String := ["third_party/forked"]
  /-- The allow-list, seen from the repository's root. -/
  allowList : String := "hack/.shellcheck_failures"
  deriving DecidableEq, Repr

/-- How containers are run. -/
structure SandboxConfig where
  runtime : String := "docker"
  deriving DecidableEq, Repr

/-- A whole configuration. -/
structure Config where
  tool : ToolConfig := {}
  discovery : DiscoveryConfig := {}
  sandbox : SandboxConfig := {}
  deriving DecidableEq, Repr

/-- The name of a configuration file, in a repository or at home. -/
def Config.fileName : String := ".shellcheck-gate.toml"

end LintGate
