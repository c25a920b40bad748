import LintGate.Proofs.Interrupt.Calm
import LintGate.Proofs.Verify.Process

/-!
# What an interrupted process leaves behind

A container outlives an interrupted process if the runtime was asked to start it and was not asked
to remove it after the start came back.  A process that waits for its run leaves none, but for
starts that failed: their removal is not repeated.  A process does not wait if its clean-up found
nothing, and that is so before the run registered its container, and again while the run is about
to remove it.

## Main definitions

* `Process.Settled` — the invariant of all processes, with what the clean-up found.
* `Process.leaves` — whether a container outlives a process that exits now.

## Main results

* `Process.Settled.move`, `Process.Settled.play` — a move, and so every course, keeps the invariant.
* `Process.Settled.isGone` — a container that was removed is gone when the process exits.
* `Process.removed_after_start_iff` — **when a container was removed after its start.**
* `Process.leaves_container` — three courses at whose end a container is left.
-/

namespace LintGate

open Program

namespace World

variable {env : Environment} {w w' : World} {c : Container} {i : Nat}

/-- A program that claims nothing yet may join a calm world. -/
theorem Calm.spawn {p : Program Result} (hc : w.Calm) (hclaims : ∀ c, p.claims c = false)
    (hp : p.Patient fun p' : Program Result => w.threads.length ≠ 0 ∧ p'.Ends Result.IsFind) :
    World.Calm (w.spawn p) := by
  have hsame (c : Container) : World.claims (w.spawn p) c = w.claims c := by
    show ((w.threads ++ [p]).map fun p => (p.claims c).toNat).sum + (w.story c).claimed.toNat =
      w.claims c
    simp [World.claims, hclaims c]
  refine ⟨fun i q hi => ?_, fun c => hsame c ▸ hc.once c, fun c hfree => hsame c ▸ hc.free c hfree,
    hc.early⟩
  rw [Pool.threads_spawn] at hi
  by_cases hlt : i < w.threads.length
  · rw [List.getElem?_append_left hlt] at hi
    exact hc.patient i q hi
  · rw [List.getElem?_append_right (Nat.le_of_not_lt hlt), List.getElem?_singleton] at hi
    split at hi
    · next hfirst =>
      obtain rfl := Option.some.inj hi
      obtain rfl : i = w.threads.length := by omega
      exact hp
    · cases hi

theorem Found.spawn {p : Program Result} (hf : w.Found) : World.Found (w.spawn p) := by
  obtain ⟨i, q, hi, hq, hends⟩ := hf
  refine ⟨i, q, hi, ?_, hends⟩
  rw [Pool.threads_spawn, List.getElem?_append_left (List.getElem?_eq_some_iff.mp hq).1]
  exact hq

/-- Who found a container still says so after a turn. -/
theorem Found.step (hf : w.Found) (hs : w.step? env i = some w') : w'.Found := by
  obtain ⟨j, q, hj, hq, hends⟩ := hf
  obtain ⟨r, next, x, registry, drawn, hi, -, rfl⟩ := Pool.step?_cases hs
  by_cases hij : i = j
  · subst hij
    obtain rfl := Option.some.inj (hi.symm.trans hq)
    exact ⟨i, next x, hj, List.getElem?_set_self (List.getElem?_eq_some_iff.mp hi).1, hends x⟩
  · exact ⟨j, q, hj, (List.getElem?_set_ne hij).trans hq, hends⟩

/-- A program of a world in which nothing was done yet. -/
theorem calm_spawn_empty {p : Program Result} (hp : p.Careful) :
    World.Calm (Pool.spawn {} p) := by
  have hempty : World.Calm {} :=
    ⟨fun _ _ h => (List.not_mem_nil (List.mem_of_getElem? h)).elim, fun _ => Nat.zero_le 1,
      fun _ _ => rfl, fun _ => rfl⟩
  exact hempty.spawn hp.claims (hp.patient.mono fun _ h => h.elim)

end World

namespace Process

variable {env : Environment} {q q' : Process} {c : Container} {u : Surroundings} {i : Invocation}

/-- The invariant of all processes: they are sound, and calm unless the clean-up found a
container. -/
def Settled (q : Process) : Prop := (∃ ps, q.Sound ps) ∧ (q.world.Calm ∨ q.world.Found)

theorem settled_launch (u : Surroundings) (i : Invocation) : (launch u i).Settled :=
  ⟨sound_launch u i, Or.inl (World.calm_spawn_empty
    ((careful_perform u i).bind fun _ => careful_done _))⟩

/-- **A move keeps the invariant.** -/
theorem Settled.move {m : Move} (hq : q.Settled) (hm : q.move? env m = some q') : q'.Settled := by
  obtain ⟨⟨ps, hs⟩, hcalm⟩ := hq
  refine ⟨hs.move hm, ?_⟩
  cases m with
  | interrupt =>
    simp only [move?] at hm
    split at hm
    · next hone =>
      obtain rfl := Option.some.inj hm
      refine hcalm.imp (fun hcalm => hcalm.spawn (fun _ => rfl) ?_) World.Found.spawn
      exact patient_cleanUp.mono fun _ hends => ⟨hone ▸ Nat.one_ne_zero, hends⟩
    · cases hm
  | turn j =>
    simp only [move?] at hm
    split at hm
    · exact Option.some.inj hm ▸ hcalm
    · obtain ⟨w, hw, rfl⟩ := Option.map_eq_some_iff.mp hm
      rcases hcalm with hcalm | hfound
      · exact hcalm.step hs.world hw
      · exact Or.inr (hfound.step hw)

/-- **Every course keeps the invariant.** -/
theorem Settled.play {ms : List Move} (hq : q.Settled) (hm : q.play env ms = some q') :
    q'.Settled := by
  induction ms generalizing q with
  | nil => exact Option.some.inj hm ▸ hq
  | cons m ms ih =>
    obtain ⟨q₁, hq₁, hrest⟩ := Option.bind_eq_some_iff.mp hm
    exact ih (hq.move hq₁) hrest

/-- A process that does not wait for its run is calm. -/
theorem Settled.calm (hq : q.Settled) (hwaits : q.waits? = some false) : q.world.Calm := by
  refine hq.2.resolve_right ?_
  rintro ⟨j, p, hj, hp, hends⟩
  unfold waits? at hwaits
  split at hwaits
  · next p' n hthreads =>
    have hzero : ¬ 0 < n := of_decide_eq_false (Option.some.inj hwaits)
    rw [hthreads] at hp
    match j with
    | 0 => exact hj rfl
    | 1 =>
      obtain rfl : Program.done (.swept n) = p := Option.some.inj hp
      exact hzero hends
    | j + 2 => cases hp
  · cases hwaits

/-- A container that was removed is gone when an interrupted process exits. -/
theorem Settled.isGone (hq : q.Settled) (hexit : q.mayExit = true) (hc : c ∈ q.begun)
    (hremoved : 0 < (q.world.story c).removals) : q.world.isGone c = true := by
  obtain ⟨ps, hs⟩ := hq.1
  obtain ⟨waits, hwaits, -⟩ := (Option.any_eq_true _ _).mp hexit
  cases waits with
  | true => exact hs.isGone hexit hwaits hc
  | false => exact (hq.calm hwaits).isGone hs.world hremoved

/-- **When a container was removed after its start.**  When an interrupted process exits, this was
so for a container that the runtime was asked to start exactly if its last holder is gone and the
start went well or no removal came before it was over.  If the process waited for its run, the
last holder is gone. -/
theorem removed_after_start_iff {ms : List Move} (h : (launch u i).play env ms = some q)
    (hexit : q.mayExit = true) (hc : c ∈ q.begun) :
    (0 < (q.stay c).after ↔ q.world.isGone c = true ∧
      ((q.world.story c).started = true ∨ (q.stay c).before = 0)) ∧
    (q.waits? = some true → q.world.isGone c = true) := by
  have hq := (settled_launch u i).play h
  obtain ⟨ps, hs⟩ := hq.1
  obtain ⟨hremovals, hstarted, hlate, hafter⟩ : (q.stay c).Fits (q.world.story c) :=
    Stay.fits_ofLog c q.world.log
  refine ⟨⟨fun hpos => ?_, ?_⟩, fun hwaits => hs.isGone hexit hwaits hc⟩
  · have hgone : q.world.isGone c = true := hq.isGone hexit hc (by omega)
    refine ⟨hgone, or_iff_not_imp_left.mpr fun hfailed => ?_⟩
    obtain ⟨hcount, -⟩ := hs.world.gone hgone
    -- nothing is removed twice unless it started
    rw [if_neg fun hboth => hfailed hboth.1] at hcount
    omega
  · rintro ⟨hgone, hwell⟩
    obtain ⟨hcount, hlater⟩ := hs.world.gone hgone
    rcases hwell with hwell | hnone
    · exact (hlater hwell).trans hlate
    · -- the removals that were owed all came after
      have hone : 1 ≤ (q.world.story c).removals := by
        rw [hcount]
        split <;> omega
      omega

/-! ### Containers that are left -/

/-- Whether a container outlives a process that exits now: the runtime was asked to start it, and
not to remove it after that. -/
def leaves (q : Process) (c : Container) : Bool :=
  q.mayExit && decide (c ∈ q.begun) && (q.stay c).after == 0

/-- A machine with a container runtime and two scripts. -/
def steady : Environment := fun _ r => (Gate.wellBehaved r {}).1

/-- The same machine, except that no container starts. -/
def unsteady : Environment := fun log r =>
  match r with
  | .run cmd => if cmd.startOf?.isSome then .ok ⟨[], [], .code 1⟩ else steady log (.run cmd)
  | other => steady log other

/-- A verification of the repository at `/r`. -/
def verification : Process := launch Gate.bare ⟨.verify "/r" 1 .human, none, 0, false⟩

/-- The container of a verification. -/
def itsContainer : Container := ⟨"shellcheck-gate-1", "docker"⟩

/-- The run and the clean-up take some turns each. -/
def turns (thread n : Nat) : List Move := .replicate n (.turn thread)

/-- An interrupt during a start that goes well: the container is removed once the start is over. -/
theorem removed_after_start_steady :
    ∃ q, verification.play steady
        (turns 0 13 ++ [.interrupt] ++ turns 1 6 ++ turns 0 5) = some q ∧
      (q.stay itsContainer).before = 1 ∧ 0 < (q.stay itsContainer).after := by
  have hcourse : (verification.play steady (turns 0 13 ++ [.interrupt] ++ turns 1 6 ++
      turns 0 5)).any (fun q => q.mayExit && decide (itsContainer ∈ q.begun) &&
        q.waits? == some true && (q.world.story itsContainer).started &&
        (q.stay itsContainer).before == 1) = true := by decide +kernel
  obtain ⟨q, hplay, hfacts⟩ := (Option.any_eq_true _ _).mp hcourse
  simp only [Bool.and_eq_true, decide_eq_true_eq, beq_iff_eq] at hfacts
  obtain ⟨⟨⟨⟨hexit, hbegun⟩, hwaits⟩, hstarted⟩, hbefore⟩ := hfacts
  obtain ⟨hiff, hgone⟩ := removed_after_start_iff hplay hexit hbegun
  exact ⟨q, hplay, hbefore, hiff.mpr ⟨hgone hwaits, Or.inl hstarted⟩⟩

/-- **Three courses at whose end a container is left.**  In the first the interrupt comes before
the run registered its container, in the second when the run gave it up and is about to remove it,
and the process does not wait.  In the third it comes during a start that fails. -/
theorem leaves_container :
    (verification.play steady (.interrupt :: turns 1 2 ++ turns 0 13)).any
        (·.leaves itsContainer) = true ∧
      (verification.play steady (turns 0 20 ++ [.interrupt] ++ turns 1 3)).any
        (·.leaves itsContainer) = true ∧
      (verification.play unsteady (turns 0 13 ++ [.interrupt] ++ turns 1 6 ++ turns 0 3)).any
        (·.leaves itsContainer) = true := by
  decide +kernel

end Process
end LintGate
