import LintGate.Proofs.Registry
import LintGate.Proofs.Verify.Stages

/-!
# Providing the tool and giving it back

A container is held once from the moment it is registered, and nobody else touches it in a
run that is not interrupted.  So it is started before it is used and removed once.

## Main definitions

* `Registry.Holds` — a container that is held once.
* `Sandbox.opening`, `Container.removal` — what is asked to start a container, and to
  remove it.
* `Strategy.Provides`, `Strategy.GivesBack` — what is asked to provide the tool, and to
  give it back.

## Main results

* `Container.ran_drop` — the last holder of a container removes it.
* `Sandbox.ran_create` — a container that does not start is removed at once.
* `Strategy.ran_provide`, `Strategy.ran_release` — the tool is provided and given back.
-/

namespace LintGate

open Program

variable {σ : Type} {answer : (r : Request) → σ → r.Answer × σ} {registry : σ → Registry}
  {s s' : σ} {asked : List Request}

/-! ### Containers -/

/-- Whether a container is held once, and how far it got. -/
def Registry.Holds (r : Registry) (k : Container) (phase : Phase) : Prop :=
  r.cell? k = some ⟨k, phase, 1⟩

namespace Container

/-- What is asked to remove a container. -/
def removal (k : Container) : List Request :=
  [.registry (.release k), .registry (.claim k), .run ⟨k.runtime, ["rm", "-f", k.name], none⟩]

theorem not_prints_removal (k : Container) : ∀ r ∈ k.removal, ¬ r.Prints := by
  simp [removal, Request.Prints]

/-- The command that removes a container. -/
def removeCommand (k : Container) : Command := ⟨k.runtime, ["rm", "-f", k.name], none⟩

/-- A step on the registry that is kept. -/
theorem ran_step (hk : KeepsRegistry answer registry) {op : Registry.Op} {x : op.Answer}
    (h : Ran answer (step op) s asked x s') :
    asked = [.registry op] ∧ x = ((registry s).apply op).1 ∧
      registry s' = ((registry s).apply op).2 := by
  obtain ⟨rfl, he⟩ := ran_send_iff.mp h
  rw [← hk.answer_eq, ← hk.step_eq, he]
  exact ⟨rfl, rfl, rfl⟩

/-- A start that nobody interrupts is recorded. -/
theorem ran_markStarted (hk : KeepsRegistry answer registry) {k : Container}
    (hs : (registry s).Holds k .starting) {b : Bool}
    (h : Ran answer k.markStarted s asked b s') :
    asked = [.registry (.markStarted k)] ∧ b = true ∧ (registry s').Holds k .running := by
  obtain ⟨first, fresh, s₁, rest, hfresh, hrest, rfl⟩ := ran_bind_iff.mp h
  obtain ⟨rfl, hfresh, hs₁⟩ := ran_step hk hfresh
  have hyes : fresh = true := by
    rw [hfresh, Registry.apply_markStarted_fst, hs]
    rfl
  rw [hyes, if_pos rfl] at hrest
  obtain ⟨rfl, rfl, rfl⟩ := ran_done_iff.mp hrest
  refine ⟨rfl, rfl, ?_⟩
  rw [Registry.Holds, hs₁, Registry.cell?_apply_self (by simp) rfl hs]
  rfl

/-- **The last holder of a container removes it.** -/
theorem ran_drop (hk : KeepsRegistry answer registry) {k : Container} {phase : Phase}
    (hs : (registry s).Holds k phase) (hphase : phase ≠ .removed)
    (h : Ran answer k.drop s asked () s') : asked = k.removal := by
  obtain ⟨first, last, s₁, rest, hlast, hrest, rfl⟩ := ran_bind_iff.mp h
  obtain ⟨rfl, hlast, hs₁⟩ := ran_step hk hlast
  have hcell₁ : (registry s₁).cell? k = some ⟨k, phase, 0⟩ := by
    rw [hs₁, Registry.cell?_apply_self (by simp) rfl hs]
    rfl
  have hyes : last = true := by
    rw [hlast]
    show ((registry s).cell? k).any _ = true
    rw [hs]
    rfl
  rw [hyes, if_pos rfl] at hrest
  obtain ⟨second, free, s₂, more, hfree, hmore, rfl⟩ := ran_bind_iff.mp hrest
  obtain ⟨rfl, hfree, -⟩ := ran_step hk hfree
  have hclaimed : free = true := by
    rw [hfree]
    show ((registry s₁).cell? k).any _ = true
    rw [hcell₁]
    simpa using hphase
  rw [hclaimed, if_pos rfl] at hmore
  obtain ⟨third, o, s₃, done, hrun, hdone, rfl⟩ := ran_bind_iff.mp hmore
  obtain ⟨rfl, -⟩ := ran_send_iff.mp hrun
  obtain ⟨rfl, -, -⟩ := ran_done_iff.mp hdone
  rfl

end Container

/-! ### Sandboxes -/

namespace Sandbox

/-- The command that starts a container. -/
def startCommand (image root : String) (k : Container) : Command :=
  ⟨k.runtime, runArgs image root k.name, some root⟩

/-- What is asked up to the start of a container. -/
def opening (image root : String) (k : Container) : List Request :=
  [.token, .registry (.create k), .registry (.enlist k), .run (startCommand image root k)]

theorem not_prints_opening (image root : String) (k : Container) :
    ∀ r ∈ opening image root k, ¬ r.Prints := by
  simp [opening, Request.Prints]

/-- A container that starts is recorded as started. -/
theorem ran_start (hk : KeepsRegistry answer registry) {image root : String} {k : Container}
    (hs : (registry s).Holds k .starting) {x : Except Fault Unit}
    (h : Ran answer (start image root k).run s asked x s') :
    (x = .ok () ∧ asked = [.run (startCommand image root k), .registry (.markStarted k)] ∧
        (registry s').Holds k .running) ∨
      ∃ f, x = .error f ∧ asked = [.run (startCommand image root k)] ∧
        (registry s').Holds k .starting := by
  have hcommand : ∀ {first y s₁},
      Ran answer (.command k.runtime (runArgs image root k.name) (some root)) s first y s₁ →
      first = [.run (startCommand image root k)] ∧ (registry s₁).Holds k .starting := by
    intro first y s₁ hrun
    obtain ⟨rfl, he⟩ := ran_send_iff.mp hrun
    have hsame := hk.other_eq (.run (startCommand image root k)) s (by simp)
    rw [startCommand, he] at hsame
    refine ⟨rfl, ?_⟩
    rw [Registry.Holds, hsame]
    exact hs
  unfold start at h
  rcases Action.ran_bind_iff.mp h with ⟨f, hrun, rfl⟩ | ⟨first, o, s₁, rest, hrun, hrest, rfl⟩
  · obtain ⟨y, hrun, -⟩ := Action.ran_trial_iff.mp hrun
    exact Or.inr ⟨f, rfl, hcommand hrun⟩
  · obtain ⟨y, hrun, -⟩ := Action.ran_trial_iff.mp hrun
    obtain ⟨rfl, hs₁⟩ := hcommand hrun
    split at hrest
    · obtain ⟨rfl, rfl, rfl⟩ := Action.ran_throw_bind_iff.mp hrest
      exact Or.inr ⟨_, rfl, rfl, hs₁⟩
    · obtain ⟨mark, b, s₂, last, hmark, hlast, rfl⟩ := Action.ran_lift_bind_iff.mp hrest
      obtain ⟨rfl, rfl, hs₂⟩ := Container.ran_markStarted hk hs₁ hmark
      obtain ⟨rfl, rfl, rfl⟩ := Action.ran_pure_iff.mp hlast
      exact Or.inl ⟨rfl, rfl, hs₂⟩

/-- **Starting a sandbox**: either a container runs and is held once, or it is removed. -/
theorem ran_create (hk : KeepsRegistry answer registry) (hs : registry s = {})
    {c : SandboxConfig} {t : ToolConfig} {root : String} {x : Except Fault Sandbox}
    (h : Ran answer (create c t root).run s asked x s') :
    ∃ k : Container, k.runtime = c.runtime ∧
      ((∃ box, x = .ok box ∧ box.container = k ∧
          asked = opening t.image root k ++ [.registry (.markStarted k)] ∧
          (registry s').Holds k .running) ∨
        ∃ f, x = .error f ∧ asked = opening t.image root k ++ k.removal) := by
  unfold create at h
  obtain ⟨_, token, s₁, _, htoken, hrest₁, rfl⟩ := Action.ran_lift_bind_iff.mp h
  obtain ⟨_, _, s₂, _, hcreate, hrest₂, rfl⟩ := Action.ran_lift_bind_iff.mp hrest₁
  obtain ⟨_, _, s₃, _, henlist, hrest₃, rfl⟩ := Action.ran_lift_bind_iff.mp hrest₂
  obtain ⟨_, y, s₄, _, hstart, hrest₄, rfl⟩ := Action.ran_lift_bind_iff.mp hrest₃
  obtain ⟨rfl, hdrawn⟩ := ran_send_iff.mp htoken
  obtain ⟨rfl, -, hs₂⟩ := Container.ran_step hk hcreate
  obtain ⟨rfl, -, hs₃⟩ := Container.ran_step hk henlist
  refine ⟨⟨"shellcheck-gate-" ++ token, c.runtime⟩, rfl, ?_⟩
  have hs₁ : registry s₁ = {} := by
    rw [← hs, ← hk.other_eq .token s (by simp), hdrawn]
  have hheld : (registry s₃).Holds ⟨"shellcheck-gate-" ++ token, c.runtime⟩ .starting := by
    rw [hs₃, hs₂, hs₁]
    simp [Registry.Holds, Registry.apply, Registry.cell?]
  generalize (⟨"shellcheck-gate-" ++ token, c.runtime⟩ : Container) = k at hstart hrest₄ hheld ⊢
  rcases ran_start hk hheld hstart with ⟨rfl, rfl, hs₄⟩ | ⟨f, rfl, rfl, hs₄⟩
  · obtain ⟨rfl, rfl, rfl⟩ := Action.ran_pure_iff.mp hrest₄
    exact Or.inl ⟨_, rfl, rfl, rfl, hs₄⟩
  · obtain ⟨_, _, s₅, _, hdrop, hthrow, rfl⟩ := Action.ran_lift_bind_iff.mp hrest₄
    obtain ⟨rfl, rfl, -⟩ := Action.ran_throw_iff.mp hthrow
    obtain rfl := Container.ran_drop hk hs₄ (by decide) hdrop
    exact Or.inr ⟨f, rfl, rfl⟩

/-- A sandbox that was created has the name of the tool and the root. -/
theorem eq_of_ran_create {c : SandboxConfig} {t : ToolConfig} {root : String}
    {box : Sandbox} (h : Ran answer (create c t root).run s asked (.ok box) s') :
    ∃ k, box = ⟨k, t.name, root⟩ := by
  unfold create at h
  obtain ⟨_, token, s₁, _, -, hrest₁, rfl⟩ := Action.ran_lift_bind_iff.mp h
  obtain ⟨_, _, s₂, _, -, hrest₂, rfl⟩ := Action.ran_lift_bind_iff.mp hrest₁
  obtain ⟨_, _, s₃, _, -, hrest₃, rfl⟩ := Action.ran_lift_bind_iff.mp hrest₂
  obtain ⟨_, y, s₄, _, -, hrest₄, rfl⟩ := Action.ran_lift_bind_iff.mp hrest₃
  cases y with
  | ok _ =>
    obtain ⟨-, he, -⟩ := Action.ran_pure_iff.mp hrest₄
    exact ⟨_, Except.ok.inj he⟩
  | error f =>
    obtain ⟨_, _, s₅, _, -, hthrow, rfl⟩ := Action.ran_lift_bind_iff.mp hrest₄
    obtain ⟨-, he, -⟩ := Action.ran_throw_iff.mp hthrow
    cases he

end Sandbox

/-! ### The tool -/

theorem Strategy.Probes.discreet {c : Config} {r : Request} (h : Strategy.Probes c r) :
    r.Discreet := by
  rcases h with rfl | rfl | rfl <;> exact ⟨id, id⟩

theorem Installer.Installs.discreet {i : Installer} {t : ToolConfig} {r : Request}
    (h : i.Installs t r) : r.Discreet := by
  rcases h with hfile | ⟨p, rfl⟩ | rfl | ⟨archive, dir, rfl⟩
  · exact hfile.discreet
  · exact ⟨id, id⟩
  · exact ⟨id, id⟩
  · exact ⟨id, id⟩

namespace Strategy

/-- What is asked to provide the tool: the sources are probed, and then nothing more is
needed, a container is started, or a release is installed. -/
inductive Provides (i : Installer) (c : Config) (root : String) : List Request → Prop
  | host {probing : List Request} (hp : ∀ r ∈ probing, Probes c r) : Provides i c root probing
  | sandbox {probing started : List Request} {k : Container} (hp : ∀ r ∈ probing, Probes c r)
      (hk : k.runtime = c.sandbox.runtime)
      (hs : started = [] ∨ started = [.registry (.markStarted k)]) :
      Provides i c root (probing ++ (Sandbox.opening c.tool.image root k ++ started))
  | download {probing installing : List Request} (hp : ∀ r ∈ probing, Probes c r)
      (hi : ∀ r ∈ installing, i.Installs c.tool r) : Provides i c root (probing ++ installing)

/-- What is asked to give the tool back: a container that was registered is removed. -/
def GivesBack (before gone : List Request) : Prop :=
  (∀ k, .registry (.enlist k) ∉ before) ∧ gone = [] ∨
    ∃ k : Container, .registry (.enlist k) ∈ before ∧ gone = k.removal

/-- Whether the container of a strategy was registered and is held once; without one, no
container was registered. -/
def Held (strategy : Strategy) (before : List Request) (r : Registry) : Prop :=
  (strategy.container? = none ∧ ∀ k, .registry (.enlist k) ∉ before) ∨
    ∃ k, strategy.container? = some k ∧ .registry (.enlist k) ∈ before ∧ r.Holds k .running

theorem not_mem_of_discreet {asked : List Request} (h : ∀ r ∈ asked, r.Discreet)
    (k : Container) : .registry (.enlist k) ∉ asked := fun hmem => (h _ hmem).1 trivial

/-- **Providing the tool**: a strategy, with its container held once; or a fault, with no
container left. -/
theorem ran_provide (hk : KeepsRegistry answer registry) (hs : registry s = {})
    {u : Surroundings} {i : Installer} {c : Config} {root : String} {x : Except Fault Strategy}
    (h : Ran answer (provide (Detect.probe u) i c root).run s asked x s') :
    (∃ strategy, x = .ok strategy ∧ Provides i c root asked ∧
        strategy.Held asked (registry s')) ∨
      ∃ f before gone, x = .error f ∧ asked = before ++ gone ∧ Provides i c root before ∧
        GivesBack before gone := by
  unfold provide at h
  rcases Action.ran_bind_iff.mp h with ⟨f, hselect, rfl⟩ |
    ⟨probing, source, s₁, rest, hselect, hrest, rfl⟩
  · have hp := hselect.forall_mem (asks_select u c)
    refine Or.inr ⟨f, asked, [], rfl, (List.append_nil asked).symm, .host hp, Or.inl ⟨?_, rfl⟩⟩
    exact not_mem_of_discreet fun r hr => (hp r hr).discreet
  have hp := hselect.forall_mem (asks_select u c)
  have hs₁ : registry s₁ = {} := by
    rw [hk.of_ran hselect fun r hr => (hp r hr).discreet.1, hs]
  cases source with
  | hostBinary =>
    obtain ⟨rfl, rfl, rfl⟩ := Action.ran_pure_iff.mp hrest
    rw [List.append_nil]
    refine Or.inl ⟨_, rfl, .host hp, Or.inl ⟨rfl, ?_⟩⟩
    exact not_mem_of_discreet fun r hr => (hp r hr).discreet
  | sandbox =>
    rcases Action.ran_bind_iff.mp hrest with ⟨f, hcreate, rfl⟩ |
      ⟨starting, box, s₂, last, hcreate, hlast, rfl⟩
    · obtain ⟨k, hruntime, ⟨box, he, -⟩ | ⟨f, -, rfl⟩⟩ := Sandbox.ran_create hk hs₁ hcreate
      · cases he
      · refine Or.inr ⟨_, probing ++ Sandbox.opening c.tool.image root k, k.removal, rfl,
          (List.append_assoc _ _ _).symm, ?_, Or.inr ⟨k, ?_, rfl⟩⟩
        · rw [← List.append_nil (Sandbox.opening c.tool.image root k)]
          exact .sandbox hp hruntime (Or.inl rfl)
        · simp [Sandbox.opening]
    · obtain ⟨k, hruntime, ⟨_, he, hbox, rfl, hheld⟩ | ⟨f, he, -⟩⟩ :=
        Sandbox.ran_create hk hs₁ hcreate
      · cases he
        obtain ⟨rfl, rfl, rfl⟩ := Action.ran_pure_iff.mp hlast
        rw [List.append_nil]
        refine Or.inl ⟨_, rfl, .sandbox hp hruntime (Or.inr rfl),
          Or.inr ⟨k, congrArg some hbox, ?_, hheld⟩⟩
        simp [Sandbox.opening]
      · cases he
  | download p =>
    have hall : ∀ r ∈ rest, i.Installs c.tool r := by
      refine hrest.forall_mem ?_
      exact Action.asks_bind (Installer.asks_ensure i c.tool p) fun _ => Action.asks_pure _
    have hnone : ∀ k, .registry (.enlist k) ∉ probing ++ rest := by
      refine not_mem_of_discreet fun r hr => ?_
      rcases List.mem_append.mp hr with hr | hr
      · exact (hp r hr).discreet
      · exact (hall r hr).discreet
    rcases Action.ran_bind_iff.mp hrest with ⟨f, -, rfl⟩ |
      ⟨installing, executable, s₂, last, -, hlast, rfl⟩
    · exact Or.inr ⟨f, probing ++ rest, [], rfl, (List.append_nil _).symm, .download hp hall,
        Or.inl ⟨hnone, rfl⟩⟩
    · obtain ⟨-, rfl, -⟩ := Action.ran_pure_iff.mp hlast
      exact Or.inl ⟨_, rfl, .download hp hall, Or.inl ⟨rfl, hnone⟩⟩

/-- **Giving the tool back**: its container is removed. -/
theorem ran_release (hk : KeepsRegistry answer registry) {strategy : Strategy}
    {before : List Request} (hheld : strategy.Held before (registry s))
    (h : Ran answer strategy.release s asked () s') : GivesBack before asked := by
  unfold release at h
  rcases hheld with ⟨hnone, henlist⟩ | ⟨k, hsome, henlist, hheld⟩
  · rw [hnone] at h
    exact Or.inl ⟨henlist, (ran_done_iff.mp h).1⟩
  · rw [hsome] at h
    exact Or.inr ⟨k, henlist, Container.ran_drop hk hheld (by decide) h⟩

theorem Lints.discreet {strategy : Strategy} {x : ScriptPath} {r : Request}
    (h : strategy.Lints x r) : r.Discreet := by
  rcases h with rfl | ⟨k, -, rfl⟩ <;> exact ⟨id, id⟩

end Strategy
end LintGate
