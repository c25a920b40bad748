import LintGate.Rules

/-!
# Faults that end a run

A run that cannot reach a verdict ends with a fault.  Diagnostics of the lint tool are
never faults.

## Main definitions

* `OsFault` — why the operating system refused an operation.
* `ConfigFault` — why there is no configuration.
* `Fault` — why a run ended without a verdict.
* `message`, `remedy` — what the user is told of a fault, and what to do about it.
-/

namespace LintGate

/-- Why the operating system refused an operation. -/
inductive OsFault
  | missing
  | notDirectory
  | isDirectory
  | denied
  | exists
  | notEmpty
  | tooLong
  | tooManyLinks
  /-- A path for a file operation holds U+0000. -/
  | nulInPath
  /-- An argument of a command holds U+0000. -/
  | nulInArgument
  /-- An argument of a command is longer than the system takes. -/
  | longArgument
  /-- A file that should hold text is not UTF-8. -/
  | notText
  /-- Some other refusal, in its own words. -/
  | other (text : String)
  deriving DecidableEq, Repr

/-- The system's wording. -/
def OsFault.message : OsFault → String
  | .missing => "No such file or directory (os error 2)"
  | .notDirectory => "Not a directory (os error 20)"
  | .isDirectory => "Is a directory (os error 21)"
  | .denied => "Permission denied (os error 13)"
  | .exists => "File exists (os error 17)"
  | .notEmpty => "Directory not empty (os error 39)"
  | .tooLong => "File name too long (os error 36)"
  | .tooManyLinks => "Too many levels of symbolic links (os error 40)"
  | .nulInPath => "file name contained an unexpected NUL byte"
  | .nulInArgument => "nul byte found in provided data"
  | .longArgument => "Argument list too long (os error 7)"
  | .notText => "stream did not contain valid UTF-8"
  | .other text => text

/-- Why there is no configuration. -/
inductive ConfigFault
  | unreadable (path : String) (reason : OsFault)
  | malformed (path : String) (reason : String)
  | badPattern (pattern : String) (reason : String)
  deriving DecidableEq, Repr

/-- What the user is told. -/
def ConfigFault.message : ConfigFault → String
  | .unreadable path reason => "Failed to read " ++ path ++ ": " ++ reason.message
  | .malformed path reason => "Failed to parse " ++ path ++ ": " ++ reason
  | .badPattern pattern reason => "Invalid path pattern '" ++ pattern ++ "': " ++ reason

/-- What to do about it. -/
def ConfigFault.remedy : ConfigFault → String
  | .unreadable path _ => "Check that " ++ path ++ " exists and is readable."
  | .malformed path _ =>
    "Fix the TOML syntax in " ++ path ++ ", or pass a different file with --config."
  | .badPattern .. => "Fix the pattern in the [discovery] section of the configuration."

/-- Why a run ended without a verdict. -/
inductive Fault
  /-- The root is not a work tree, or it cannot be told what is ignored in it. -/
  | discovery (root : String) (reason : String)
  /-- The allow-list is out of order; `expected` are its lines as they should stand. -/
  | unsortedAllowList (path : String) (expected : List String)
  /-- There is no way to run the pinned tool. -/
  | toolUnavailable (reason : String)
  /-- The container did not start. -/
  | sandboxCreation (image : String) (reason : String)
  /-- The tool could not be run on a script. -/
  | toolInvocation (script : String) (reason : String)
  | config (fault : ConfigFault)
  | os (fault : OsFault)
  deriving DecidableEq, Repr

namespace Fault

/-- What the user is told. -/
def message : Fault → String
  | .discovery root reason => "Discovery failed in " ++ root ++ ": " ++ reason
  | .unsortedAllowList path _ => path ++ " is not in sorted order"
  | .toolUnavailable reason => "ShellCheck is unavailable: " ++ reason
  | .sandboxCreation image reason =>
    "Failed to create sandbox from " ++ image ++ ": " ++ reason
  | .toolInvocation script reason =>
    "Failed to run ShellCheck on " ++ script ++ ": " ++ reason
  | .config fault => "Configuration error: " ++ fault.message
  | .os fault => "IO error: " ++ fault.message

/-- The command that puts an allow-list in order, and the order it will have. -/
def sortRemedy (path : String) (expected : List String) : String :=
  "Please sort it with:\n  LC_ALL=C sort -u -o " ++ path ++ " " ++ path ++ "\nExpected order:" ++
    String.join (expected.map ("\n  " ++ ·))

/-- What to do about it. -/
def remedy : Fault → String
  | .discovery .. => "Run from inside a git work tree, or pass its path explicitly."
  | .unsortedAllowList path expected => sortRemedy path expected
  | .toolUnavailable _ =>
    "Install the pinned ShellCheck version, start a container runtime, or run on a platform " ++
      "with a published ShellCheck release."
  | .sandboxCreation image _ =>
    "Check that the container runtime is healthy and can pull " ++ image ++ "."
  | .toolInvocation .. =>
    "Check that ShellCheck runs on its own, or rerun with -vv to see the failing command."
  | .config fault => fault.remedy
  | .os _ => "Rerun with -vv to see which operation failed."

/-- The fault of a rule that is none. -/
def ofRule (f : String × RuleFault) : Fault := .config (.badPattern f.1 f.2.message)

end Fault
end LintGate
