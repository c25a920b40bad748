import LintGate.Text.Blank
import LintGate.Text.Utf8

/-!
# The outcome of linting one script

What the tool prints is the only signal: any text that is not blank is a diagnostic.
Its exit status says nothing, since it may be silent and fail, or talk and succeed.

## Main definitions

* `ExitStatus`, `Output` — how a command ended and what it printed.
* `Output.combined` — the two streams as one text.
* `LintOutcome`, `LintOutcome.ofText`, `LintOutcome.ofOutput` — the outcome and how it
  is read off.
-/

namespace LintGate

open Text

/-- How a command ended. -/
inductive ExitStatus
  | code (n : Nat)
  /-- It was ended by a signal and has no exit code. -/
  | killed
  deriving DecidableEq, Repr

/-- Whether the command ended with code zero. -/
def ExitStatus.isSuccess (s : ExitStatus) : Bool := s == .code 0

/-- The exit code, unless the command was killed. -/
def ExitStatus.code? : ExitStatus → Option Nat
  | .code n => some n
  | .killed => none

/-- What a finished command printed, and how it ended. -/
structure Output where
  stdout : Bytes
  stderr : Bytes
  status : ExitStatus
  deriving DecidableEq, Repr

namespace Output

/-- The first stream as text. -/
def outText (o : Output) : List Char := decodeLossy o.stdout

/-- The second stream as text. -/
def errText (o : Output) : List Char := decodeLossy o.stderr

/-- The second stream as text without its outer blanks. -/
def complaint (o : Output) : String := String.ofList (strip o.errText)

/-- Both streams as one text: a second stream that is not blank starts on a line of
its own. -/
def combined (o : Output) : List Char :=
  if isAllBlank o.errText then o.outText
  else if o.outText.isEmpty || o.outText.getLast? == some '\n' then o.outText ++ o.errText
  else o.outText ++ '\n' :: o.errText

end Output

/-- What linting a script found. -/
inductive LintOutcome
  | clean
  | failed (diagnostic : String)
  deriving DecidableEq, Repr

namespace LintOutcome

/-- A blank text is no diagnostic. -/
def ofText (cs : List Char) : LintOutcome :=
  if isAllBlank cs then .clean else .failed (String.ofList cs)

/-- The outcome that the tool's output tells of. -/
def ofOutput (o : Output) : LintOutcome := ofText o.combined

end LintOutcome
end LintGate
