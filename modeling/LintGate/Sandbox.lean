import LintGate.Config
import LintGate.Program.Basic

/-!
# The sandbox

A sandbox is a container that outlives the single commands run in it, with the
repository mounted at its own path and for reading only.  It is left to an interrupt
before the runtime is asked to start it.

## Main definitions

* `Container.remove`, `Container.drop`, `removeAll` — taking containers down.
* `Sandbox`, `Sandbox.create`, `Sandbox.exec` — starting a container, and running the
  tool in it.
-/

namespace LintGate

namespace Container

/-- Does a step on the registry. -/
def step (op : Registry.Op) : Program op.Answer := .send (.registry op)

/-- Has the runtime remove a container, whether it can or not. -/
def forceRemove (c : Container) : Program Unit :=
  (Program.command c.runtime ["rm", "-f", c.name] none).bind fun _ => .done ()

/-- Removes a container unless its removal was claimed before. -/
def remove (c : Container) : Program Unit := do
  if ← step (.claim c) then c.forceRemove

/-- Holds a container in one place less; the last place removes it. -/
def drop (c : Container) : Program Unit := do
  if ← step (.release c) then c.remove

/-- Records that the runtime started a container.  A removal that was claimed meanwhile
came too early, so it is repeated. -/
def markStarted (c : Container) : Program Bool := do
  if ← step (.markStarted c) then return true
  c.forceRemove
  return false

/-- The containers of a list that are still held somewhere; each is held once more. -/
def acquireAll : List Container → Program (List Container)
  | [] => pure []
  | c :: cs => do
    if ← step (.acquire c) then return c :: (← acquireAll cs)
    else acquireAll cs

/-- Does the same for each container of a list. -/
def forEach (f : Container → Program Unit) : List Container → Program Unit
  | [] => pure ()
  | c :: cs => do
    f c
    forEach f cs

/-- Removes the containers that are left to an interrupt and still held somewhere; the
answer is how many these are. -/
def removeAll : Program Nat := do
  let held ← acquireAll (← step .drain)
  forEach remove held
  forEach drop held
  return held.length

end Container

/-- A running container with the repository mounted at its own path. -/
structure Sandbox where
  container : Container
  tool : String
  root : String
  deriving DecidableEq, Repr

namespace Sandbox

/-- What a container does until it is removed. -/
def keepAlive : String := "trap 'exit' TERM; while sleep 1; do :; done"

/-- The arguments that start a container. -/
def runArgs (image root name : String) : List String :=
  ["run", "--rm", "--detach", "--volume", root ++ ":" ++ root ++ ":ro", "--workdir", root,
    "--name", name, "--entrypoint", "/bin/sh", image, "-c", keepAlive]

/-- Asks the runtime to start a container, and records that it did. -/
def start (image root : String) (c : Container) : Action Unit := do
  let failed (reason : String) : Fault := .sandboxCreation image reason
  let o ← Action.trial (.command c.runtime (runArgs image root c.name) (some root))
    fun e => failed e.message
  if !o.status.isSuccess then throw (failed o.complaint)
  if !(← ExceptT.lift c.markStarted) then
    throw (failed "interrupted while the container was starting")

/-- Starts a sandbox.  If this fails, the container is not held any longer. -/
def create (s : SandboxConfig) (t : ToolConfig) (root : String) : Action Sandbox := do
  let c : Container := ⟨"shellcheck-gate-" ++ (← Action.ask .token), s.runtime⟩
  -- An interrupt knows of the container before the runtime does.
  Action.ask (.registry (.create c))
  Action.ask (.registry (.enlist c))
  match ← ExceptT.lift (start t.image root c).run with
  | .ok _ => return ⟨c, t.name, root⟩
  | .error f =>
    ExceptT.lift c.drop
    throw f

/-- The arguments that run the tool in a container. -/
def execArgs (s : Sandbox) (args : List String) (script : String) : List String :=
  ["exec", "--workdir", s.root, s.container.name, s.tool] ++ args ++ [script]

/-- Runs the tool in a sandbox. -/
def exec (s : Sandbox) (args : List String) (script : String) :
    Program (Except OsFault Output) :=
  .command s.container.runtime (s.execArgs args script) (some s.root)

end Sandbox
end LintGate
