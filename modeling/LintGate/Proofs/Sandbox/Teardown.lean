import Mathlib.Algebra.BigOperators.Pi
import LintGate.Proofs.Sandbox.World

/-!
# No container outlives its last holder

A container that nobody holds any longer was removed as often as it takes: twice if its
removal was recorded while the runtime still started it, and once otherwise.  A removal
that was recorded ends all use of the container.

## Main definitions

* `World.isGone` — the last holder of a container is gone.
* `World.Refused` — the state of a call that comes too late.

## Main results

* `World.Sound.gone` — how often a container was removed when its last holder is gone.
* `World.Refused.play` — a call that comes too late is refused, whatever happens meanwhile.
* `World.teardown` — what holds of every container at every moment of every run.
-/

namespace LintGate

/-- Whether a program is about to claim the removal of a container, or to remove it. -/
def Program.takesDown {ρ : Type} (c : Container) : Program ρ → Bool
  | .ask (.registry (.claim c')) _ => c' == c
  | .ask (.run cmd) _ => cmd.removalOf? == some c
  | _ => false

/-- The last holder of a container is gone: no place holds it, and whoever found that is
done with it. -/
def World.isGone (w : World) (c : Container) : Bool :=
  (w.registry.cell? c).any (·.handles == 0) && w.threads.all fun p => !p.takesDown c

namespace World

variable {env : Environment} {w w' : World} {ps : Cast} {c : Container}

theorem duty_of_leaves {a : Result} {k : Custody} (h : a.leaves k) : k.duty = .free := by
  unfold Result.leaves at h
  split at h
  · rw [h]
  · exact h.2

/-- Who owes a removal is about to claim it or to carry it out. -/
theorem takesDown_of_part {p : Program Result} {k : Custody} (hp : Keeps Result.leaves p k)
    (hk : 0 < k.part c .claim ∨ 0 < k.part c .remove) : p.takesDown c = true := by
  obtain ⟨s, d, a⟩ := k
  cases p with
  | done x =>
    obtain rfl : d = .free := duty_of_leaves hp
    exact absurd hk (by simp [Custody.part, Duty.part])
  | ask r next =>
    cases d with
    | claim c' =>
      obtain rfl : c' = c := by
        simpa [Custody.part, Duty.part, Nat.pos_iff_ne_zero] using hk
      obtain rfl := Custody.request_of_claim hp.1
      simp [Program.takesDown]
    | remove c' =>
      obtain rfl : c' = c := by
        simpa [Custody.part, Duty.part, Nat.pos_iff_ne_zero] using hk
      obtain ⟨cmd, rfl, hcmd⟩ := Custody.request_of_remove hp.1
      simp [Program.takesDown, hcmd]
    | _ => exact absurd hk (by simp [Custody.part, Duty.part])

/-- Who has to record a start holds the container. -/
theorem held_of_part {p : Program Result} {k : Custody} (hp : Keeps Result.leaves p k)
    (hk : 0 < k.part c .mark) : 0 < k.part c .handle := by
  obtain ⟨s, d, a⟩ := k
  cases p with
  | done x =>
    obtain rfl : d = .free := duty_of_leaves hp
    exact absurd hk (by simp [Custody.part, Duty.part])
  | ask r next =>
    cases d with
    | mark c' =>
      obtain rfl : c' = c := by
        simpa [Custody.part, Duty.part, Nat.pos_iff_ne_zero] using hk
      exact Multiset.count_pos.mpr (Custody.held_of_mark hp.1)
    | _ => exact absurd hk (by simp [Custody.part, Duty.part])

/-- The programs have nothing of a container if each of them has nothing of it. -/
theorem Cast.part_eq_zero {q : Part} :
    Cast.part ps c q = 0 ↔ ∀ p ∈ ps, p.2.part c q = 0 := by
  rw [Cast.part, Pi.list_sum_apply, List.map_map, List.sum_eq_zero_iff_forall_eq_nat]
  exact List.forall_mem_map

/-- **Once the last holder is gone**, the container was removed as often as it takes. -/
theorem Sound.gone (hw : w.Sound ps) (hc : w.isGone c = true) :
    (w.story c).removals =
        (if (w.story c).started = true ∧ (w.story c).early = true then 2 else 1) ∧
      ((w.story c).started = true → 1 ≤ (w.story c).late) := by
  obtain ⟨hcell, hdown⟩ := Bool.and_eq_true_iff.mp hc
  obtain ⟨x, hx, hhandles⟩ := (Option.any_eq_true _ _).mp hcell
  have hacc := hw.account hx
  have hidle (p : Program Result × Custody) (hp : p ∈ ps) : p.1.takesDown c = false := by
    have hmem : p.1 ∈ w.threads := hw.threads ▸ List.mem_map_of_mem hp
    simpa using List.all_eq_true.mp hdown p.1 hmem
  have hhandle : Cast.part ps c .handle = 0 := by
    rw [← hacc.handles]
    simpa using hhandles
  -- Who has to record the start holds the container, but nobody does.
  have hmark : Cast.part ps c .mark = 0 := Cast.part_eq_zero.mpr fun p hp => by
    by_contra hne
    have hheld := held_of_part (hw.keeps p hp) (Nat.pos_of_ne_zero hne)
    rw [Cast.part_eq_zero.mp hhandle p hp] at hheld
    exact absurd hheld (lt_irrefl 0)
  have howed (q : Part) (hq : q = .claim ∨ q = .remove) : Cast.part ps c q = 0 := by
    refine Cast.part_eq_zero.mpr fun p hp => ?_
    by_contra hne
    have hpos : 0 < p.2.part c q := Nat.pos_of_ne_zero hne
    have hdown : p.1.takesDown c = true := by
      refine takesDown_of_part (hw.keeps p hp) ?_
      rcases hq with rfl | rfl
      · exact Or.inl hpos
      · exact Or.inr hpos
    rw [hidle p hp] at hdown
    exact Bool.false_ne_true hdown
  exact hacc.gone hhandle hmark (howed _ (Or.inl rfl)) (howed _ (Or.inr rfl))

/-- **Who created a sandbox knows** that no removal was recorded before its start was. -/
theorem Sound.created {i : Nat} {box : Sandbox} (hw : w.Sound ps)
    (hi : w.threads[i]? = some (.done (.created (.ok box)))) :
    (w.story box.container).marked = true ∧ (w.story box.container).early = false := by
  obtain ⟨k, hk⟩ := hw.getElem?_cast hi
  have hmem := List.mem_of_getElem? hk
  obtain rfl : k = _ := hw.keeps _ hmem
  exact hw.assured _ hmem _ rfl

/-! ### Calls that come too late -/

/-- The fault of a call that finds the sandbox torn down. -/
def tornDown (box : Sandbox) (script : ScriptPath) : Fault :=
  .toolInvocation script.text ("sandbox " ++ box.container.name ++ " was torn down")

/-- The state of a call that began after the removal of its container was recorded: it
waits for its turn, or was refused, and has run no command. -/
structure Refused (w : World) (j : Nat) (box : Sandbox) (args : List String)
    (script : ScriptPath) : Prop where
  claimed : (w.story box.container).claimed = true
  status : w.threads[j]? = some (lintCall box args script) ∨
    w.threads[j]? = some (.done (.linted (.error (tornDown box script))))
  silent : ∀ e ∈ w.log, e.thread = j → e.isCommand = false

theorem lintCall_eq (box : Sandbox) (args : List String) (script : ScriptPath) :
    ∃ next : Bool → Program Result,
      lintCall box args script = .ask (.registry (.isRemoved box.container)) next ∧
        next true = .done (.linted (.error (tornDown box script))) :=
  ⟨_, rfl, rfl⟩

/-- A container whose removal was recorded is found removed. -/
theorem Sound.isRemoved (hw : w.Sound ps) (hc : (w.story c).claimed = true) :
    (w.registry.apply (.isRemoved c)).1 = true := by
  cases hx : w.registry.cell? c with
  | none =>
    have hb := hw.balanced c
    rw [hx] at hb
    rw [hb.1] at hc
    exact absurd hc Bool.false_ne_true
  | some x =>
    have hphase : x.phase = .removed := (hw.account hx).removed.mpr hc
    simp [Registry.apply, hx, hphase]

variable {box : Sandbox} {args : List String} {script : ScriptPath} {j : Nat}

/-- The turn of a call that came too late is its last. -/
theorem Sound.refuse (env : Environment) (hw : w.Sound ps)
    (hc : (w.story box.container).claimed = true)
    (hj : w.threads[j]? = some (lintCall box args script)) :
    ∃ w', w.step? env j = some w' ∧
      w'.threads[j]? = some (.done (.linted (.error (tornDown box script)))) ∧
      w'.log = w.log ++ [⟨j, .registry (.isRemoved box.container), true⟩] := by
  obtain ⟨next, hcall, htrue⟩ := lintCall_eq box args script
  rw [hcall] at hj
  have hlt : j < w.threads.length := (List.getElem?_eq_some_iff.mp hj).1
  have hanswer := hw.isRemoved hc
  refine ⟨_, Pool.step?_registry hj, ?_, ?_⟩
  · rw [hanswer, htrue]
    exact List.getElem?_set_self hlt
  · rw [hanswer]

/-- A turn of another program leaves a refused call as it is. -/
theorem Refused.other {i : Nat} (hr : w.Refused j box args script) (hne : i ≠ j)
    (hs : w.step? env i = some w') : w'.Refused j box args script := by
  obtain ⟨r, next, x, registry, drawn, hi, -, rfl⟩ := Pool.step?_cases hs
  refine ⟨?_, ?_, ?_⟩
  · rw [Pool.story, Story.ofLog_concat]
    exact Story.claimed_note _ _ hr.claimed
  · dsimp only
    rw [List.getElem?_set_ne hne]
    exact hr.status
  · intro e he hj
    rcases List.mem_append.mp he with he | he
    · exact hr.silent e he hj
    · rw [List.mem_singleton.mp he] at hj
      exact absurd hj hne

/-- The turn of a call that came too late runs no command. -/
theorem Refused.own (hw : w.Sound ps) (hr : w.Refused j box args script)
    (hs : w.step? env j = some w') : w'.Refused j box args script := by
  -- The call is refused now, or it was before and has no turn any more.
  rcases hr.status with hj | hj
  · obtain ⟨w₁, hw₁, hdone, hlog⟩ := hw.refuse env hr.claimed hj
    obtain rfl : w₁ = w' := Option.some.inj (hw₁.symm.trans hs)
    refine ⟨?_, Or.inr hdone, ?_⟩
    · rw [Pool.story, hlog, Story.ofLog_concat]
      exact Story.claimed_note _ _ hr.claimed
    · intro e he hthread
      rw [hlog] at he
      rcases List.mem_append.mp he with he | he
      · exact hr.silent e he hthread
      · rw [List.mem_singleton.mp he]
        rfl
  · obtain ⟨r, next, -, -, -, hask, -⟩ := Pool.step?_cases hs
    rw [hj] at hask
    exact absurd hask (by simp)

theorem Refused.spawn {p : Program Result} (hr : w.Refused j box args script) :
    Refused (w.spawn p) j box args script := by
  have hlt : j < w.threads.length := by
    rcases hr.status with hj | hj
    · exact (List.getElem?_eq_some_iff.mp hj).1
    · exact (List.getElem?_eq_some_iff.mp hj).1
  refine ⟨hr.claimed, ?_, hr.silent⟩
  rw [Pool.threads_spawn, List.getElem?_append_left hlt]
  exact hr.status

/-- No move helps a call that came too late. -/
theorem Refused.move {m : Move} (hw : w.Sound ps) (hr : w.Refused j box args script)
    (hm : w.move? env m = some w') : w'.Refused j box args script := by
  cases m with
  | create s t root => exact Option.some.inj hm ▸ hr.spawn
  | sweep => exact Option.some.inj hm ▸ hr.spawn
  | lint box args script => exact Option.some.inj hm ▸ hr.spawn
  | drop i =>
    simp only [move?] at hm
    split at hm
    · next box' hi =>
      obtain rfl := Option.some.inj hm
      have hne : i ≠ j := by
        rintro rfl
        rcases hr.status with hj | hj
        · obtain ⟨next, hcall, -⟩ := lintCall_eq box args script
          rw [hj, hcall] at hi
          exact absurd hi (by simp)
        · rw [hj] at hi
          exact absurd hi (by simp)
      refine ⟨hr.claimed, ?_, hr.silent⟩
      dsimp only
      rw [List.getElem?_set_ne hne]
      exact hr.status
    · exact absurd hm (by simp)
  | step i =>
    by_cases hi : i = j
    · subst hi
      exact hr.own hw hm
    · exact hr.other hi hm

/-- **A call that came too late is refused**, whatever happens meanwhile. -/
theorem Refused.play {ms : List Move} (hw : w.Sound ps) (hr : w.Refused j box args script)
    (hm : w.play env ms = some w') : w'.Refused j box args script := by
  induction ms generalizing w ps with
  | nil => exact Option.some.inj hm ▸ hr
  | cons m ms ih =>
    obtain ⟨w₁, hw₁, hrest⟩ := Option.bind_eq_some_iff.mp hm
    obtain ⟨ps₁, hs⟩ := hw.move hw₁
    exact ih hs (hr.move hw hw₁) hrest

/-- A call that begins after the removal was recorded comes too late. -/
theorem Sound.refused_spawn (args : List String) (script : ScriptPath) (hw : w.Sound ps)
    (hc : (w.story box.container).claimed = true) :
    Refused (w.spawn (lintCall box args script)) w.threads.length box args script where
  claimed := hc
  status := Or.inl (by simp)
  silent := fun e he hj => absurd (hw.log e he) (hj ▸ lt_irrefl _)

/-- **Teardown under every order of the turns.**  Once the last holder of a container is
gone, the runtime was asked to remove it exactly once, or exactly twice if its removal was
recorded before its start was, and at least once after a start.  Who created a sandbox knows
that no removal was recorded before.  A call that begins after the removal was recorded
runs no command, and its next turn ends it with a fault, unless that was done. -/
theorem teardown {ms : List Move} (hw : World.play env ms {} = some w) (c : Container) :
    (w.isGone c = true →
      (w.story c).removals =
          (if (w.story c).started = true ∧ (w.story c).early = true then 2 else 1) ∧
        ((w.story c).started = true → 1 ≤ (w.story c).late)) ∧
    (∀ (i : Nat) (box : Sandbox), w.threads[i]? = some (.done (.created (.ok box))) →
      box.container = c → (w.story c).marked = true ∧ (w.story c).early = false) ∧
    ((w.story c).claimed = true → ∀ box args script later w', box.container = c →
      World.play env (.lint box args script :: later) w = some w' →
      (∀ e ∈ w'.log, e.thread = w.threads.length → e.isCommand = false) ∧
      (w'.threads[w.threads.length]? = some (.done (.linted (.error (tornDown box script)))) ∨
        ∃ w'', w'.step? env w.threads.length = some w'' ∧ w''.threads[w.threads.length]? =
          some (.done (.linted (.error (tornDown box script)))))) := by
  obtain ⟨ps, hs⟩ := sound_empty.play hw
  refine ⟨fun hgone => hs.gone hgone, ?_, ?_⟩
  · rintro i box hi rfl
    exact hs.created hi
  · rintro hc box args script later w' rfl hlater
    obtain ⟨w₁, hw₁, hrest⟩ := Option.bind_eq_some_iff.mp hlater
    obtain rfl := Option.some.inj hw₁
    obtain ⟨ps₁, hs₁⟩ := hs.move hw₁
    have hr := (hs.refused_spawn args script hc).play hs₁ hrest
    obtain ⟨ps', hs'⟩ := hs₁.play hrest
    refine ⟨hr.silent, ?_⟩
    rcases hr.status with hj | hj
    · obtain ⟨w'', hstep, hdone, -⟩ := hs'.refuse env hr.claimed hj
      exact Or.inr ⟨w'', hstep, hdone⟩
    · exact Or.inl hj

/-- A machine on which every command ends well. -/
def smooth : Environment := fun _ r =>
  match r with
  | .run _ => .ok ⟨[], [], .code 0⟩
  | .fetch _ => .error .noAddress
  | .canonical path => .ok path
  | .readFile _ => .ok []
  | .isThere _ | .isFile _ => true
  | .survey _ => none
  | .makeDirs _ | .writeFile .. | .removeFile _ | .removeTree _ | .rename .. => .ok ()
  | .tempFile .. | .tempDir .. => .ok ""
  | .print .. => .ok ()
  | .tell _ => ()
  | .token => "a"
  | .registry (.create _) | .registry (.enlist _) => ()
  | .registry .drain => []
  | .registry (.claim _) | .registry (.markStarted _) | .registry (.isRemoved _)
  | .registry (.acquire _) | .registry (.release _) => true

/-- An interrupt between the registration of a container and its start. -/
def interruptedStart : List Move :=
  [.create {} {} "/r", .step 0, .step 0, .step 0, .sweep, .step 1, .step 1, .step 1, .step 1,
    .step 0, .step 0, .step 0, .step 0, .step 1, .step 1]

/-- The container appears after its removal, so it is removed once more. -/
theorem teardown_interruptedStart :
    ∃ w, World.play smooth interruptedStart {} = some w ∧
      w.isGone ⟨"shellcheck-gate-a", "docker"⟩ = true ∧
      (w.story ⟨"shellcheck-gate-a", "docker"⟩).removals = 2 ∧
      1 ≤ (w.story ⟨"shellcheck-gate-a", "docker"⟩).late := by
  obtain ⟨w, hw, hgone, hstarted, hearly⟩ : ∃ w, World.play smooth interruptedStart {} = some w ∧
      w.isGone ⟨"shellcheck-gate-a", "docker"⟩ = true ∧
      (w.story ⟨"shellcheck-gate-a", "docker"⟩).started = true ∧
      (w.story ⟨"shellcheck-gate-a", "docker"⟩).early = true :=
    ⟨_, rfl, by decide, by decide, by decide⟩
  obtain ⟨hcount, -, -⟩ := teardown hw ⟨"shellcheck-gate-a", "docker"⟩
  obtain ⟨hremovals, hlate⟩ := hcount hgone
  rw [if_pos ⟨hstarted, hearly⟩] at hremovals
  exact ⟨w, hw, hgone, hremovals, hlate hstarted⟩

end World
end LintGate
