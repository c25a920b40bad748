import LintGate.Machine.Scripted
import LintGate.Verify

/-!
# Processes on a scripted machine

A process has a registry of its own, and ends with an exit code.

## Main definitions

* `Machine.process` — a process that runs to its end.
* `Machine.interruptedProcess` — a process that is interrupted while it first starts a
  container.
-/

namespace LintGate
namespace Machine

/-- A process that runs to its end; its exit code is given. -/
def process (m : Machine) (s : Surroundings) (i : Invocation) : Nat × Machine :=
  let (code, after) := { m with registry := {} }.play (Gate.pipeline s i)
  (code, { after with registry := m.registry })

/-- A process that is interrupted while it first starts a container; without a container
it runs to its end.  Its run goes on only if the interrupt found a container that is
still held. -/
def interruptedProcess (m : Machine) (s : Surroundings) (i : Invocation) : Nat × Machine :=
  let ((waits, rest), after) :=
    playInterrupted Gate.interrupt (i.perform s).run { m with registry := {} }
  let (code, after) :=
    match waits with
    | none => after.play (rest.bind Gate.conclude)
    | some true => (Gate.interruptCode, (after.play rest).2)
    | some false => (Gate.interruptCode, after)
  (code, { after with registry := m.registry })

end Machine
end LintGate
