/-!
# Containers and their registry

A container is removed exactly once, whoever asks for it first: the run that used it
up, or an interrupt.  Both sides look at one shared registry.  Every operation here is
one step that nothing else can come between; commands are issued between the steps.

A removal that is claimed while the runtime still starts the container comes too early
to have an effect, so `markStarted` tells the creator to repeat it.

## Main definitions

* `Container`, `Phase`, `Cell` — a container, how far it got, and who holds it.
* `Registry` — the containers of a process and those that an interrupt has to remove.
* `Registry.Op`, `Registry.apply` — the steps.
-/

namespace LintGate

/-- A container and the runtime that runs it. -/
structure Container where
  name : String
  runtime : String
  deriving DecidableEq, Repr, Inhabited

/-- How far a container got. -/
inductive Phase
  /-- The runtime has not answered yet. -/
  | starting
  | running
  /-- Its removal was claimed. -/
  | removed
  deriving DecidableEq, Repr

/-- A container with the number of places that hold it. -/
structure Cell where
  container : Container
  phase : Phase
  handles : Nat
  deriving DecidableEq, Repr

/-- The containers of a process, and those that an interrupt has to remove. -/
structure Registry where
  cells : List Cell := []
  pending : List Container := []
  deriving DecidableEq, Repr

namespace Registry

/-- The cell of a container. -/
def cell? (r : Registry) (c : Container) : Option Cell := r.cells.find? (·.container == c)

/-- Changes the cell of a container. -/
def modify (r : Registry) (c : Container) (f : Cell → Cell) : Registry :=
  { r with cells := r.cells.map fun x => if x.container = c then f x else x }

/-- A step on the registry. -/
inductive Op
  /-- A new container, held once. -/
  | create (c : Container)
  /-- Leaves a container to an interrupt. -/
  | enlist (c : Container)
  /-- Claims the removal: whether nobody did before. -/
  | claim (c : Container)
  /-- Records that the runtime started the container: whether nobody claimed its
  removal before. -/
  | markStarted (c : Container)
  | isRemoved (c : Container)
  /-- Takes all containers that are left to an interrupt. -/
  | drain
  /-- Holds a container in one more place, unless no place holds it: whether it did. -/
  | acquire (c : Container)
  /-- Holds it in one place less: whether that was the last. -/
  | release (c : Container)
  deriving DecidableEq, Repr

/-- What a step answers. -/
@[reducible] def Op.Answer : Op → Type
  | .create _ | .enlist _ => Unit
  | .drain => List Container
  | _ => Bool

/-- Does a step. -/
def apply (r : Registry) : (op : Op) → op.Answer × Registry
  | .create c => ((), { r with cells := r.cells ++ [⟨c, .starting, 1⟩] })
  | .enlist c => ((), { r with pending := r.pending ++ [c] })
  | .claim c =>
    ((r.cell? c).any (·.phase != .removed), r.modify c fun x => { x with phase := .removed })
  | .markStarted c =>
    if (r.cell? c).any (·.phase == .starting) then
      (true, r.modify c fun x => { x with phase := .running })
    else (false, r)
  | .isRemoved c => ((r.cell? c).any (·.phase == .removed), r)
  | .drain => (r.pending, { r with pending := [] })
  | .acquire c =>
    if (r.cell? c).any (0 < ·.handles) then
      (true, r.modify c fun x => { x with handles := x.handles + 1 })
    else (false, r)
  | .release c =>
    ((r.cell? c).any (·.handles == 1), r.modify c fun x => { x with handles := x.handles - 1 })

end Registry
end LintGate
