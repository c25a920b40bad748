import LintGate.Proofs.Interrupt.Custody
import LintGate.Proofs.Sandbox.Teardown

/-!
# An interrupted process

A process does its run and may be interrupted at any moment.  Then it cleans up, side by side
with the run, and exits; it waits for the run only if the clean-up found a container to remove.
To start a container takes time: the runtime is asked, and answers later, and whatever else
happens meanwhile comes between.

## Main definitions

* `Stay` — when the runtime was asked to remove a container: before a start came back, or after.
* `Process`, `Process.Move`, `Process.play` — a run and the clean-up, with their turns in any order.
* `Process.waits?`, `Process.mayExit` — when an interrupted process exits.
* `Process.Sound` — the invariant of all processes.

## Main results

* `Stay.fits_ofLog` — what the story of a container says about its removals.
* `Process.Sound.move`, `Process.Sound.play` — a move, and so every course, keeps the invariant.
* `Process.Sound.isGone` — **a process that waited leaves no container.**
-/

namespace LintGate

open Program

/-! ### Removals before and after a start -/

/-- When the runtime was asked to remove a container. -/
structure Stay where
  /-- The start came back, whatever came of it. -/
  returned : Bool := false
  /-- How often the runtime was asked to remove the container before that. -/
  before : Nat := 0
  /-- How often after that. -/
  after : Nat := 0
  deriving DecidableEq, Repr

namespace Stay

/-- The runtime is asked to remove the container. -/
def remove (t : Stay) : Stay :=
  { t with
    before := t.before + if t.returned then 0 else 1
    after := t.after + if t.returned then 1 else 0 }

/-- What an answered request adds. -/
def note (c : Container) (t : Stay) : Event → Stay
  | ⟨_, .run cmd, _⟩ =>
    if cmd.removalOf? = some c then t.remove
    else if cmd.startOf? = some c then { t with returned := true }
    else t
  | _ => t

/-- What a log says of a container. -/
def ofLog (c : Container) (log : List Event) : Stay := log.foldl (note c) {}

/-- What the story of a container says about its removals. -/
structure Fits (t : Stay) (h : Story) : Prop where
  removals : h.removals = t.before + t.after
  started : h.started = true → t.returned = true
  late_le : h.late ≤ t.after
  after_eq : t.returned = false → t.after = 0

variable {c : Container} {t : Stay} {h : Story} {e : Event}

theorem Fits.remove (ht : t.Fits h) : t.remove.Fits h.remove := by
  obtain ⟨hremovals, hstarted, hlate, hafter⟩ := ht
  have hcount : h.removals + 1 =
      t.before + (if t.returned then 0 else 1) + (t.after + if t.returned then 1 else 0) := by
    split <;> omega
  have hlater : h.late + (if h.started = true then 1 else 0) ≤
      t.after + if t.returned then 1 else 0 := by
    -- a start that did not come back did not go well
    split
    · next hs =>
      rw [if_pos (hstarted hs)]
      omega
    · omega
  refine ⟨hcount, hstarted, hlater, fun hreturned => ?_⟩
  show t.after + (if t.returned then 1 else 0) = 0
  rw [hafter hreturned, if_neg (by simp [show t.returned = false from hreturned])]

theorem Fits.note (ht : t.Fits h) : (t.note c e).Fits (h.note c e) := by
  obtain ⟨i, r, x⟩ := e
  cases r with
  | run cmd =>
    show Fits (if cmd.removalOf? = some c then t.remove else _) (h.noteRun c cmd x)
    unfold Story.noteRun
    by_cases hremoval : cmd.removalOf? = some c
    · rw [if_pos hremoval, if_pos hremoval]
      exact ht.remove
    rw [if_neg hremoval, if_neg hremoval]
    obtain ⟨hremovals, hstarted, hlate, hafter⟩ := ht
    by_cases hstart : cmd.startOf? = some c
    · rw [if_pos hstart]
      split
      · exact ⟨hremovals, fun _ => rfl, hlate, fun hfalse => absurd hfalse (by simp)⟩
      · exact ⟨hremovals, fun _ => rfl, hlate, fun hfalse => absurd hfalse (by simp)⟩
    · rw [if_neg hstart, if_neg fun hboth => hstart hboth.1]
      exact ⟨hremovals, hstarted, hlate, hafter⟩
  | registry op =>
    obtain ⟨hremovals, hstarted, hlate, hafter⟩ := ht
    cases op with
    | claim c' =>
      show Fits t (if c' = c then _ else h)
      split <;> exact ⟨hremovals, hstarted, hlate, hafter⟩
    | markStarted c' =>
      show Fits t (if c' = c then _ else h)
      split <;> exact ⟨hremovals, hstarted, hlate, hafter⟩
    | _ => exact ⟨hremovals, hstarted, hlate, hafter⟩
  | _ => exact ht

/-- **The story of a container and its stay fit**, whatever happened. -/
theorem fits_ofLog (c : Container) (log : List Event) : (ofLog c log).Fits (.ofLog c log) := by
  have hfold : ∀ (log : List Event) (t : Stay) (h : Story), t.Fits h →
      (log.foldl (Stay.note c) t).Fits (log.foldl (Story.note c) h) := by
    intro log
    induction log with
    | nil => exact fun t h ht => ht
    | cons e log ih => exact fun t h ht => ih _ _ ht.note
  exact hfold log {} {} ⟨rfl, id, le_refl 0, fun _ => rfl⟩

end Stay

/-! ### Processes -/

/-- The container that a program is about to have started. -/
def Program.starts? {ρ : Type} : Program ρ → Option Container
  | .ask (.run cmd) _ => cmd.startOf?
  | _ => none

/-- A process: its run is the first program of a world, and its clean-up, once it is interrupted,
the second. -/
structure Process where
  world : World
  /-- The containers that the runtime was asked to start, whether it answered or not. -/
  begun : List Container := []

namespace Process

/-- The run of a process. -/
def mainRun (u : Surroundings) (i : Invocation) : Program Result :=
  (i.perform u).run.bind fun _ => .done .dropped

/-- The clean-up of a process. -/
def cleanUp : Program Result := Gate.interrupt.bind fun waits => .done (.swept waits.toNat)

/-- A process that begins its run. -/
def launch (u : Surroundings) (i : Invocation) : Process := ⟨Pool.spawn {} (mainRun u i), []⟩

/-- What can happen next. -/
inductive Move
  /-- The process is interrupted, for the first time. -/
  | interrupt
  /-- It is the turn of the run, which is number 0, or of the clean-up, which is number 1. -/
  | turn (thread : Nat)

/-- The container that the runtime is asked to start in the turn of a program, if it was not
asked before.  The program gets the answer in its next turn. -/
def begins? (q : Process) (i : Nat) : Option Container :=
  ((q.world.threads[i]?).bind Program.starts?).filter (· ∉ q.begun)

/-- Makes a move, if it can be made. -/
def move? (env : Environment) (q : Process) : Move → Option Process
  | .interrupt =>
    if q.world.threads.length = 1 then some { q with world := q.world.spawn cleanUp } else none
  | .turn i =>
    match q.begins? i with
    | some c => some { q with begun := c :: q.begun }
    | none => (q.world.step? env i).map fun w => { q with world := w }

/-- Makes moves one after another. -/
def play (env : Environment) : List Move → Process → Option Process
  | [], q => some q
  | m :: ms, q => (q.move? env m).bind (play env ms)

/-- Whether a process that cleaned up waits for its run. -/
def waits? (q : Process) : Option Bool :=
  match q.world.threads with
  | [_, .done (.swept n)] => some (0 < n)
  | _ => none

/-- Whether the run is over. -/
def isOver (q : Process) : Bool :=
  match q.world.threads with
  | .done .dropped :: _ => true
  | _ => false

/-- Whether an interrupted process can exit: it cleaned up, and if it has to wait for its run then
that is over. -/
def mayExit (q : Process) : Bool := q.waits?.any fun waits => !waits || q.isOver

/-- When the runtime was asked to remove a container. -/
def stay (q : Process) (c : Container) : Stay := .ofLog c q.world.log

/-! ### The invariant -/

/-- The invariant of all processes. -/
structure Sound (q : Process) (ps : Cast) : Prop where
  world : q.world.Sound ps
  /-- A container that the runtime was asked to start is in the registry. -/
  begun : ∀ c ∈ q.begun, (q.world.registry.cell? c).isSome = true

variable {env : Environment} {q q' : Process} {ps : Cast} {c : Container} {u : Surroundings}
  {i : Invocation}

theorem keeps_mainRun (u : Surroundings) (i : Invocation) :
    Keeps Result.leaves (mainRun u i) {} :=
  keeps_bind ((keeps_perform u i).mono fun _ _ hk => hk)

theorem keeps_cleanUp : Keeps Result.leaves cleanUp {} :=
  keeps_bind (keeps_interrupt.mono fun _ _ hk => hk)

theorem sound_launch (u : Surroundings) (i : Invocation) : ∃ ps, (launch u i).Sound ps :=
  ⟨_, World.sound_empty.spawn (keeps_mainRun u i), by simp [launch]⟩

theorem isSome_cell?_step {w w' : World} {j : Nat} (h : w.step? env j = some w')
    (hc : (w.registry.cell? c).isSome = true) : (w'.registry.cell? c).isSome = true := by
  obtain ⟨r, next, x, registry, drawn, -, hr, rfl⟩ := Pool.step?_cases h
  exact Pool.isSome_cell?_reply hr hc

/-- Who is about to have a container started made it. -/
theorem isSome_cell?_begins {j : Nat} (hw : q.world.Sound ps) (h : q.begins? j = some c) :
    (q.world.registry.cell? c).isSome = true := by
  obtain ⟨hstarts, -⟩ := Option.filter_eq_some_iff.mp h
  obtain ⟨p, hp, hstart⟩ := Option.bind_eq_some_iff.mp hstarts
  obtain ⟨⟨s, d, a⟩, hk⟩ := hw.getElem?_cast hp
  have hkeeps := hw.keeps _ (List.mem_of_getElem? hk)
  cases p with
  | done x => cases hstart
  | ask r next =>
    cases r with
    | run cmd =>
      have hcmd : cmd.startOf? = some c := hstart
      have hpermits := hkeeps.1
      -- who asks for a start has the duty to
      have hduty : d = .start c := by
        cases d with
        | start c' => exact congrArg Duty.start (Option.some.inj (hpermits.1.symm.trans hcmd))
        | free => exact absurd (hpermits.1.symm.trans hcmd) (by simp)
        | remove c' => exact absurd (Command.startOf?_of_removalOf? hpermits) (by simp [hcmd])
        | _ => exact hpermits.elim
      have howed : 0 < Custody.part ⟨s, d, a⟩ c .start := by
        simp [Custody.part, Duty.part, hduty]
      obtain ⟨x, hx, -⟩ := hw.exists_account (List.mem_of_getElem? hk) howed
      rw [hx]
      rfl
    | _ => cases hstart

/-- **A move keeps the invariant.** -/
theorem Sound.move {m : Move} (hq : q.Sound ps) (hm : q.move? env m = some q') :
    ∃ ps', Sound q' ps' := by
  cases m with
  | interrupt =>
    simp only [move?] at hm
    split at hm
    · obtain rfl := Option.some.inj hm
      exact ⟨_, hq.world.spawn keeps_cleanUp, hq.begun⟩
    · cases hm
  | turn j =>
    simp only [move?] at hm
    split at hm
    · next c hc =>
      obtain rfl := Option.some.inj hm
      refine ⟨ps, hq.world, fun c' hc' => ?_⟩
      rcases List.mem_cons.mp hc' with rfl | hc'
      · have hcell := isSome_cell?_begins hq.world hc
        exact hcell
      · exact hq.begun c' hc'
    · obtain ⟨w, hw, rfl⟩ := Option.map_eq_some_iff.mp hm
      obtain ⟨ps', hs⟩ := hq.world.step hw
      exact ⟨ps', hs, fun c hc => isSome_cell?_step hw (hq.begun c hc)⟩

/-- **Every course keeps the invariant.** -/
theorem Sound.play {ms : List Move} (hq : q.Sound ps) (hm : q.play env ms = some q') :
    ∃ ps', Sound q' ps' := by
  induction ms generalizing q ps with
  | nil => exact ⟨ps, Option.some.inj hm ▸ hq⟩
  | cons m ms ih =>
    obtain ⟨q₁, hq₁, hrest⟩ := Option.bind_eq_some_iff.mp hm
    obtain ⟨ps₁, hs⟩ := hq.move hq₁
    exact ih hs hrest

/-- A process that waited for its run left no program with anything to do. -/
theorem threads_of_waits (hexit : q.mayExit = true) (hwaits : q.waits? = some true) :
    ∃ n, q.world.threads = [.done .dropped, .done (.swept n)] := by
  have hover : q.isOver = true := by
    rw [mayExit, hwaits] at hexit
    exact hexit
  unfold waits? at hwaits
  unfold isOver at hover
  split at hwaits
  · next p n hthreads =>
    rw [hthreads] at hover ⊢
    split at hover
    · next rest hfirst =>
      obtain ⟨rfl, -⟩ := List.cons.inj hfirst
      exact ⟨n, rfl⟩
    · cases hover
  · cases hwaits

/-- **A process that waited leaves no container.** -/
theorem Sound.isGone (hq : q.Sound ps) (hexit : q.mayExit = true)
    (hwaits : q.waits? = some true) (hc : c ∈ q.begun) : q.world.isGone c = true := by
  obtain ⟨n, hthreads⟩ := threads_of_waits hexit hwaits
  obtain ⟨x, hx⟩ := Option.isSome_iff_exists.mp (hq.begun c hc)
  have hacc := hq.world.account hx
  have hhandle : Cast.part ps c .handle = 0 := World.Cast.part_eq_zero.mpr fun p hp => by
    have hkeeps := hq.world.keeps p hp
    have hmem : p.1 ∈ q.world.threads := hq.world.threads ▸ List.mem_map_of_mem hp
    obtain ⟨p, k⟩ := p
    rw [hthreads] at hmem
    have hfree : k.held = 0 := by
      rcases List.mem_pair.mp hmem with rfl | rfl
      · exact hkeeps.1
      · exact hkeeps.1
    show k.held.count c = 0
    rw [hfree]
    exact Multiset.count_zero c
  refine Bool.and_eq_true_iff.mpr ⟨?_, ?_⟩
  · rw [hx, Option.any_some, hacc.handles, hhandle]
    rfl
  · rw [hthreads]
    rfl

end Process

end LintGate
