import LintGate.Proofs.Program.Pool
import LintGate.Sandbox

/-!
# The story of a container

What a log of answered requests says of one container: whether the runtime started it,
whether its removal was recorded and when, and how often it was asked to remove it.

## Main definitions

* `Command.startOf?`, `Command.removalOf?` — the container a command starts or removes.
* `Story`, `Story.note`, `Pool.story` — what happened to a container.

## Main results

* `Story.claimed_note`, `Story.assured_note` — what a story keeps, whatever happens next.
-/

namespace LintGate

/-- The container that a command asks the runtime to start. -/
def Command.startOf? (c : Command) : Option Container :=
  match c.args with
  | "run" :: "--rm" :: "--detach" :: "--volume" :: _ :: "--workdir" :: _ :: "--name" :: name :: _ =>
    some ⟨name, c.program⟩
  | _ => none

/-- The container that a command asks the runtime to remove. -/
def Command.removalOf? (c : Command) : Option Container :=
  match c.args with
  | ["rm", "-f", name] => some ⟨name, c.program⟩
  | _ => none

/-- Whether a command ran, and ended well. -/
def ranWell : Except OsFault Output → Bool
  | .ok o => o.status.isSuccess
  | .error _ => false

/-- What happened to a container. -/
structure Story where
  /-- The runtime was asked to start it, and said that it did. -/
  started : Bool := false
  /-- Its removal was recorded. -/
  claimed : Bool := false
  /-- Its start was recorded, or found to be too late for that. -/
  marked : Bool := false
  /-- When that happened, its removal had been recorded. -/
  early : Bool := false
  /-- How often the runtime was asked to remove it. -/
  removals : Nat := 0
  /-- How often that was after the start. -/
  late : Nat := 0
  deriving DecidableEq, Repr

namespace Story

/-- The runtime is asked to remove the container. -/
def remove (h : Story) : Story :=
  { h with removals := h.removals + 1, late := h.late + if h.started then 1 else 0 }

/-- The start is recorded.  Only the first time counts. -/
def mark (h : Story) : Story :=
  { h with marked := true, early := if h.marked then h.early else h.claimed }

/-- What a command that was run adds to the story of a container. -/
def noteRun (h : Story) (c : Container) (cmd : Command) (x : Except OsFault Output) : Story :=
  if cmd.removalOf? = some c then h.remove
  else if cmd.startOf? = some c ∧ ranWell x = true then { h with started := true }
  else h

/-- What an answered request adds to the story of a container. -/
def note (c : Container) (h : Story) : Event → Story
  | ⟨_, .run cmd, x⟩ => h.noteRun c cmd x
  | ⟨_, .registry (.claim c'), _⟩ => if c' = c then { h with claimed := true } else h
  | ⟨_, .registry (.markStarted c'), _⟩ => if c' = c then h.mark else h
  | _ => h

end Story

/-- What a log says of a container. -/
def Story.ofLog (c : Container) (log : List Event) : Story := log.foldl (Story.note c) {}

/-- What happened to a container. -/
def Pool.story {ρ : Type} (w : Pool ρ) (c : Container) : Story := .ofLog c w.log

namespace Story

@[simp] theorem ofLog_concat (c : Container) (log : List Event) (e : Event) :
    ofLog c (log ++ [e]) = (ofLog c log).note c e := by
  simp [ofLog]

/-- No command records a removal. -/
@[simp] theorem claimed_noteRun (h : Story) (c : Container) (cmd : Command)
    (x : Except OsFault Output) : (h.noteRun c cmd x).claimed = h.claimed := by
  unfold noteRun
  split
  · rfl
  · split <;> rfl

/-- A recorded removal is never forgotten. -/
theorem claimed_note {h : Story} (c : Container) (e : Event) (hc : h.claimed = true) :
    (h.note c e).claimed = true := by
  unfold note
  split
  · rw [claimed_noteRun, hc]
  · split
    · rfl
    · exact hc
  · split <;> exact hc
  · exact hc

/-- Whether the start was in time is settled when it is recorded. -/
theorem assured_note {h : Story} (c : Container) (e : Event)
    (hm : h.marked = true ∧ h.early = false) :
    (h.note c e).marked = true ∧ (h.note c e).early = false := by
  unfold note
  split
  · unfold noteRun
    split
    · exact hm
    · split <;> exact hm
  · split <;> exact hm
  · split
    · exact ⟨rfl, by simp [mark, hm]⟩
    · exact hm
  · exact hm

end Story
end LintGate
