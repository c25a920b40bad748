import LintGate.Tool.Detect

/-!
# Installing a release

The pinned release is downloaded once and kept.  An executable is handed out only
after it reported the pinned version.

## Main definitions

* `Installer` — where releases are kept.
* `Installer.cached` — the executable that was installed before.
* `Installer.ensure` — the executable, installed if need be.
-/

namespace LintGate

/-- Where releases are kept. -/
structure Installer where
  root : String
  deriving DecidableEq, Repr

namespace Installer

/-- Releases are kept in the user's cache, or below the current directory if there is
none. -/
def ofSurroundings (s : Surroundings) : Installer :=
  ⟨Path.join (s.cache.getD ".") "shellcheck-gate"⟩

/-- The executable of the pinned release, if it was installed before. -/
def cached (i : Installer) (t : ToolConfig) : Program (Option String) := do
  let status ← Detect.file (t.binaryPath i.root)
  return if status.matchesVersion t.version then some (t.binaryPath i.root) else none

/-- The name of a status that a server refuses with. -/
def reasonOf : Nat → String
  | 400 => "Bad Request"
  | 401 => "Unauthorized"
  | 402 => "Payment Required"
  | 403 => "Forbidden"
  | 404 => "Not Found"
  | 405 => "Method Not Allowed"
  | 406 => "Not Acceptable"
  | 407 => "Proxy Authentication Required"
  | 408 => "Request Timeout"
  | 409 => "Conflict"
  | 410 => "Gone"
  | 411 => "Length Required"
  | 412 => "Precondition Failed"
  | 413 => "Payload Too Large"
  | 414 => "URI Too Long"
  | 415 => "Unsupported Media Type"
  | 416 => "Range Not Satisfiable"
  | 417 => "Expectation Failed"
  | 418 => "I'm a teapot"
  | 421 => "Misdirected Request"
  | 422 => "Unprocessable Entity"
  | 423 => "Locked"
  | 424 => "Failed Dependency"
  | 425 => "Too Early"
  | 426 => "Upgrade Required"
  | 428 => "Precondition Required"
  | 429 => "Too Many Requests"
  | 431 => "Request Header Fields Too Large"
  | 451 => "Unavailable For Legal Reasons"
  | 500 => "Internal Server Error"
  | 501 => "Not Implemented"
  | 502 => "Bad Gateway"
  | 503 => "Service Unavailable"
  | 504 => "Gateway Timeout"
  | 505 => "HTTP Version Not Supported"
  | 506 => "Variant Also Negotiates"
  | 507 => "Insufficient Storage"
  | 508 => "Loop Detected"
  | 510 => "Not Extended"
  | 511 => "Network Authentication Required"
  | _ => "<unknown status code>"

/-- Whether a server refuses what it is asked for. -/
def refuses (reply : Reply) : Bool := 400 ≤ reply.status && reply.status < 600

/-- The fault of a download. -/
def downloadFault (url : String) (f : FetchFault) : Fault :=
  .toolUnavailable ("download of " ++ url ++ " failed: " ++ f.message)

/-- Downloads from an address into a file; a server's refusal is a fault. -/
def download (url archive : String) : Action Unit := do
  match ← Action.ask (.fetch url) with
  | .error f => throw (downloadFault url f)
  | .ok reply =>
    if refuses reply then
      throw (downloadFault url (.refused reply.status (reasonOf reply.status) url))
    Action.trial (.send (.writeFile archive reply.body)) fun _ => downloadFault url .notStored

/-- Unpacks an archive into a directory. -/
def unpack (archive dir : String) : Action Unit := do
  let o ← Action.trial (.command "tar" ["-xJf", archive] (some dir)) .os
  if !o.status.isSuccess then
    throw (.toolUnavailable ("failed to extract " ++ archive ++ ": " ++ o.complaint))

/-- Puts an unpacked release in the place of one that was installed before. -/
def replace (i : Installer) (t : ToolConfig) (url staging : String) : Action Unit := do
  let target := t.releaseDir i.root
  -- An earlier installation that does not report the version makes room.
  if ← Action.ask (.isThere target) then
    Action.trial (.send (.removeTree target)) .os
  Action.trial (.send (.rename (t.releaseDir staging) target)) fun e =>
    .toolUnavailable
      ("release archive from " ++ url ++ " did not contain " ++ t.releaseName ++ ": " ++ e.message)

/-- Removes something without looking whether it could be removed. -/
def discard (r : Request) : Program Unit := (Program.send r).bind fun _ => .done ()

/-- Unpacks an archive aside, moves the release into its place, and makes sure that it
has the pinned version. -/
def installFrom (i : Installer) (t : ToolConfig) (url archive : String) : Action String := do
  let staging ← Action.trial (.send (.tempDir i.root "extract-")) .os
  Action.always (do
      unpack archive staging
      i.replace t url staging
      match ← ExceptT.lift (i.cached t) with
      | some binary => return binary
      | none =>
        throw (.toolUnavailable
          ("downloaded " ++ t.name ++ " does not report version " ++ t.version)))
    (discard (.removeTree staging))

/-- Downloads and installs the pinned release. -/
def install (i : Installer) (t : ToolConfig) (p : Platform) : Action String := do
  Action.trial (.send (.makeDirs i.root)) .os
  let url := t.releaseArchive p
  let archive ← Action.trial (.send (.tempFile i.root "download-" ".tar.xz")) .os
  Action.always (do
      download url archive
      i.installFrom t url archive)
    (discard (.removeFile archive))

/-- The executable of the pinned release, installed if it was not before. -/
def ensure (i : Installer) (t : ToolConfig) (p : Platform) : Action String := do
  match ← ExceptT.lift (i.cached t) with
  | some binary => return binary
  | none => i.install t p

end Installer
end LintGate
