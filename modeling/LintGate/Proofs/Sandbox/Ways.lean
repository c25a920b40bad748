import LintGate.Proofs.Sandbox.Ledger
import LintGate.Proofs.Verify.Tool

/-!
# What can be exchanged to create a sandbox

Whatever a machine answers, and whatever others do with the container meanwhile, a sandbox is
created by one command that starts a container.  If that fails, or comes too late, the container
is given up, and then it may be removed or be left to whoever else holds it.

## Main definitions

* `Container.Drops`, `Sandbox.Starts`, `Sandbox.Creates` — what can be exchanged when a container
  is given up, when it is started, and when a sandbox is created.
* `commandsOf` — the commands among exchanges.
* `Request.TendsTo` — requests that have to do with one container.

## Main results

* `Sandbox.creates_of_path` — **all ways through the creation of a sandbox.**
* `Sandbox.Creates.commands` — one command starts the container, and the others remove it.
* `Sandbox.Creates.removals` — how often a container that was not created is removed.
-/

namespace LintGate

open Program

/-- The commands among exchanges. -/
def commandsOf (es : List Exchange) : List Command :=
  es.filterMap fun e => e.command?.map Prod.fst

@[simp] theorem commandsOf_append (first rest : List Exchange) :
    commandsOf (first ++ rest) = commandsOf first ++ commandsOf rest := List.filterMap_append

/-- Whether a request has to do with one container: its name is drawn, a step on the registry is
about it, or a command is run. -/
def Request.TendsTo (k : Container) : Request → Prop
  | .token | .run _ => True
  | .registry op => op.subject? = some k
  | _ => False

namespace Container

/-- What can be exchanged when a container is held in one place less. -/
inductive Drops (k : Container) : List Exchange → Prop
  /-- Someone else still holds it. -/
  | shared : Drops k [⟨.registry (.release k), false⟩]
  /-- Its removal was claimed before. -/
  | spent : Drops k [⟨.registry (.release k), true⟩, ⟨.registry (.claim k), false⟩]
  | removed (x : Except OsFault Output) :
    Drops k [⟨.registry (.release k), true⟩, ⟨.registry (.claim k), true⟩,
      ⟨.run k.removeCommand, x⟩]

theorem drops_of_path {k : Container} {es : List Exchange} (h : Path k.drop es ()) :
    Drops k es := by
  cases h with
  | ask last h =>
    cases last with
    | false =>
      cases h with
      | done => exact .shared
    | true =>
      cases h with
      | ask first h =>
        cases first with
        | false =>
          cases h with
          | done => exact .spent
        | true =>
          cases h with
          | ask x h =>
            cases h with
            | done => exact .removed x

/-- A container that is given up is removed once, if its removal is claimed first then. -/
theorem Drops.commands {k : Container} {es : List Exchange} (h : Drops k es) :
    ∃ m, commandsOf es = List.replicate m k.removeCommand ∧ m ≤ 1 ∧
      (m = 1 ↔ .won k ∈ es) := by
  cases h with
  | shared => exact ⟨0, rfl, by simp⟩
  | spent => exact ⟨0, rfl, by simp⟩
  | removed x => exact ⟨1, rfl, by simp⟩

theorem Drops.tends {k : Container} {es : List Exchange} (h : Drops k es) :
    ∀ e ∈ es, e.request.TendsTo k ∧ ∀ c, e.enlists c = false := by
  cases h <;> simp [Request.TendsTo, Registry.Op.subject?, Exchange.enlists]

end Container

namespace Sandbox

/-- What can be exchanged to start a container, and what that comes to. -/
inductive Starts (image root : String) (k : Container) :
    List Exchange → Except Fault Unit → Prop
  /-- The runtime does not answer, or answers with a failure. -/
  | failed (x : Except OsFault Output) (reason : String) (hx : ranWell x = false) :
    Starts image root k [⟨.run (startCommand image root k), x⟩]
      (.error (.sandboxCreation image reason))
  | inTime (x : Except OsFault Output) (hx : ranWell x = true) :
    Starts image root k
      [⟨.run (startCommand image root k), x⟩, ⟨.registry (.markStarted k), true⟩] (.ok ())
  /-- Its removal was claimed meanwhile. -/
  | late (x y : Except OsFault Output) (reason : String) (hx : ranWell x = true) :
    Starts image root k
      [⟨.run (startCommand image root k), x⟩, ⟨.registry (.markStarted k), false⟩,
        ⟨.run k.removeCommand, y⟩]
      (.error (.sandboxCreation image reason))

theorem starts_of_path {image root : String} {k : Container} {es : List Exchange}
    {x : Except Fault Unit} (h : Path (start image root k).run es x) :
    Starts image root k es x := by
  cases h with
  | ask a h =>
    cases a with
    | error e =>
      cases h with
      | done => exact .failed _ _ rfl
    | ok o =>
      simp only [done_bind, Except.mapError, ExceptT.bindCont] at h
      by_cases ho : o.status.isSuccess = true
      · simp only [ho] at h
        cases h with
        | ask inTime h =>
          cases inTime with
          | true =>
            cases h with
            | done => exact .inTime _ ho
          | false =>
            cases h with
            | ask y h =>
              cases h with
              | done => exact .late _ y _ ho
      · simp only [ho] at h
        cases h with
        | done => exact .failed _ _ (Bool.eq_false_iff.mpr ho)

/-- Whether exchanges say that a container runs: the runtime said so, and its removal was not
claimed before that was recorded. -/
def Runs (image root : String) (k : Container) (es : List Exchange) : Prop :=
  (∃ x, ⟨.run (startCommand image root k), x⟩ ∈ es ∧ ranWell x = true) ∧
    ⟨.registry (.markStarted k), true⟩ ∈ es

variable {image root : String} {k : Container} {es : List Exchange}

/-- A start asks the runtime once; if it was recorded too late, the container is removed. -/
theorem Starts.commands {x : Except Fault Unit} (h : Starts image root k es x) :
    ∃ m, commandsOf es = startCommand image root k :: List.replicate m k.removeCommand ∧ m ≤ 1 ∧
      (m = 1 ↔ .late k ∈ es) ∧ (x.isOk = true → m = 0) := by
  cases h with
  | failed x reason hx => exact ⟨0, rfl, by simp [Except.isOk, Except.toBool]⟩
  | inTime x hx => exact ⟨0, rfl, by simp⟩
  | late x y reason hx => exact ⟨1, rfl, by simp [Except.isOk, Except.toBool]⟩

theorem Starts.tends {x : Except Fault Unit} (h : Starts image root k es x) :
    ∀ e ∈ es, e.request.TendsTo k ∧ (∀ c, e.enlists c = false) ∧ e ≠ .won k := by
  cases h <;> simp [Request.TendsTo, Registry.Op.subject?, Exchange.enlists]

theorem Starts.isOk_iff {x : Except Fault Unit} (h : Starts image root k es x) :
    x.isOk = true ↔ Runs image root k es := by
  cases h with
  | failed x reason hx => simp [Runs, Except.isOk, Except.toBool]
  | inTime x hx => simp [Runs, Except.isOk, Except.toBool, hx]
  | late x y reason hx => simp [Runs, Except.isOk, Except.toBool]

/-- A failed start names the image, and either the runtime failed or the container was removed. -/
theorem Starts.error {f : Fault} (h : Starts image root k es (.error f)) :
    (∃ reason, f = .sandboxCreation image reason) ∧
      ((∃ x, ⟨.run (startCommand image root k), x⟩ ∈ es ∧ ranWell x = false) ∨
        .late k ∈ es) := by
  cases h with
  | failed x reason hx => exact ⟨⟨reason, rfl⟩, Or.inl ⟨x, List.mem_cons_self, hx⟩⟩
  | late x y reason hx => exact ⟨⟨reason, rfl⟩, Or.inr (by simp)⟩

/-- What is exchanged before the runtime is asked to start a container. -/
def registering (token : String) (k : Container) : List Exchange :=
  [⟨.token, token⟩, ⟨.registry (.create k), ()⟩, ⟨.registry (.enlist k), ()⟩]

theorem tends_of_registering {token : String} {e : Exchange} (he : e ∈ registering token k) :
    e.request.TendsTo k ∧ ∀ c, e ≠ .won c := by
  simp only [registering, List.mem_cons, List.not_mem_nil, or_false] at he
  rcases he with rfl | rfl | rfl
  · exact ⟨trivial, by simp⟩
  · exact ⟨rfl, by simp⟩
  · exact ⟨rfl, by simp⟩

/-- What can be exchanged to create a sandbox, and what that comes to. -/
inductive Creates (s : SandboxConfig) (t : ToolConfig) (root token : String) :
    List Exchange → Except Fault Sandbox → Prop
  | started {es : List Exchange}
      (hstart : Starts t.image root ⟨gateName token, s.runtime⟩ es (.ok ())) :
    Creates s t root token (registering token ⟨gateName token, s.runtime⟩ ++ es)
      (.ok ⟨⟨gateName token, s.runtime⟩, t.name, root⟩)
  | failed {es gone : List Exchange} {f : Fault}
      (hstart : Starts t.image root ⟨gateName token, s.runtime⟩ es (.error f))
      (hdrop : Container.Drops ⟨gateName token, s.runtime⟩ gone) :
    Creates s t root token (registering token ⟨gateName token, s.runtime⟩ ++ (es ++ gone))
      (.error f)

/-- **All ways through the creation of a sandbox.** -/
theorem creates_of_path {s : SandboxConfig} {t : ToolConfig} {x : Except Fault Sandbox}
    (h : Path (create s t root).run es x) : ∃ token, Creates s t root token es x := by
  unfold create at h
  obtain ⟨_, token, _, rfl, htoken, h⟩ := Action.path_lift_bind h
  obtain ⟨_, _, _, rfl, hmade, h⟩ := Action.path_lift_bind h
  obtain ⟨_, _, _, rfl, henlisted, h⟩ := Action.path_lift_bind h
  obtain ⟨starting, y, rest, rfl, hstart, h⟩ := Action.path_lift_bind h
  obtain rfl := path_send htoken
  obtain rfl := path_send hmade
  obtain rfl := path_send henlisted
  have hstart := starts_of_path hstart
  refine ⟨token, ?_⟩
  cases y with
  | ok _ =>
    cases h with
    | done =>
      rw [List.append_nil]
      exact .started hstart
  | error f =>
    obtain ⟨gone, _, _, rfl, hdrop, hthrow⟩ := Action.path_lift_bind h
    cases hthrow with
    | done =>
      rw [List.append_nil]
      exact .failed hstart (Container.drops_of_path hdrop)

section Creates

variable {s : SandboxConfig} {t : ToolConfig} {token : String} {x : Except Fault Sandbox}

/-- What a sandbox was created for, or failed to be, is the container that the token names. -/
theorem Creates.tends (h : Creates s t root token es x) :
    ∀ e ∈ es, e.request.TendsTo ⟨gateName token, s.runtime⟩ := by
  intro e he
  cases h with
  | started hstart =>
    rcases List.mem_append.mp he with he | he
    · exact (tends_of_registering he).1
    · exact (hstart.tends e he).1
  | failed hstart hdrop =>
    rcases List.mem_append.mp he with he | he
    · exact (tends_of_registering he).1
    rcases List.mem_append.mp he with he | he
    · exact (hstart.tends e he).1
    · exact (hdrop.tends e he).1

theorem Creates.makes (h : Creates s t root token es x) :
    .made ⟨gateName token, s.runtime⟩ ∈ es := by
  cases h with
  | started _ => exact List.mem_cons_of_mem _ List.mem_cons_self
  | failed _ _ => exact List.mem_cons_of_mem _ List.mem_cons_self

/-- The container is left to interrupts once. -/
theorem Creates.countP_enlists (h : Creates s t root token es x) (c : Container) :
    (es.countP fun e => e.enlists c) ≤ 1 := by
  have hregistering : ((registering token ⟨gateName token, s.runtime⟩).countP fun e =>
      e.enlists c) ≤ 1 := by
    simp only [registering, List.countP_cons, List.countP_nil, Exchange.enlists]
    split <;> simp
  have hnone {es : List Exchange} (hes : ∀ e ∈ es, e.enlists c = false) :
      (es.countP fun e => e.enlists c) = 0 :=
    List.countP_eq_zero.mpr fun e he => by simp [hes e he]
  cases h with
  | started hstart =>
    rw [List.countP_append, hnone fun e he => (hstart.tends e he).2.1 c]
    exact hregistering
  | failed hstart hdrop =>
    rw [List.countP_append, List.countP_append, hnone fun e he => (hstart.tends e he).2.1 c,
      hnone fun e he => (hdrop.tends e he).2 c]
    exact hregistering

/-- **A sandbox is created exactly if its container runs.** -/
theorem Creates.isOk_iff (h : Creates s t root token es x) :
    x.isOk = true ↔ Runs t.image root ⟨gateName token, s.runtime⟩ es := by
  cases h with
  | started hstart =>
    obtain ⟨⟨a, ha, hwell⟩, hmark⟩ := hstart.isOk_iff.mp rfl
    exact iff_of_true rfl
      ⟨⟨a, List.mem_append_right _ ha, hwell⟩, List.mem_append_right _ hmark⟩
  | failed hstart hdrop =>
    refine iff_of_false Bool.false_ne_true fun hruns => ?_
    cases hstart <;> cases hdrop <;> simp [Runs, registering] at hruns

/-- A sandbox that could not be created is told with the image. -/
theorem Creates.error {f : Fault} (h : Creates s t root token es (.error f)) :
    ∃ reason, f = .sandboxCreation t.image reason := by
  cases h with
  | failed hstart _ => exact hstart.error.1

/-- **One command starts the container.**  If the sandbox was created it is the only one. -/
theorem Creates.commands {box : Sandbox} (h : Creates s t root token es (.ok box)) :
    commandsOf es = [startCommand t.image root ⟨gateName token, s.runtime⟩] := by
  cases h with
  | started hstart =>
    obtain ⟨m, hm, -, -, hok⟩ := hstart.commands
    rw [commandsOf_append, hm, hok rfl]
    rfl

/-- **How often a container that was not created is removed**: as often as the runtime started it
too late and its removal was claimed first at the end. -/
theorem Creates.removals {f : Fault} (h : Creates s t root token es (.error f)) :
    let k : Container := ⟨gateName token, s.runtime⟩
    ∃ m, commandsOf es = startCommand t.image root k :: List.replicate m k.removeCommand ∧
      ((es.Pairwise fun e e' => ∀ c, e = .late c → e' ≠ .won c) → m ≤ 1) ∧
      (.won k ∈ es → 1 ≤ m) ∧
      (m = 0 → ∃ x, ⟨.run (startCommand t.image root k), x⟩ ∈ es ∧ ranWell x = false) := by
  intro k
  cases h with
  | failed hstart hdrop =>
    obtain ⟨late, hlate, hlate_le, hlate_iff, -⟩ := hstart.commands
    obtain ⟨last, hlast, hlast_le, hlast_iff⟩ := hdrop.commands
    refine ⟨late + last, ?_, fun horder => ?_, fun hwon => ?_, fun hzero => ?_⟩
    · rw [commandsOf_append, commandsOf_append, hlate, hlast, List.cons_append,
        List.replicate_append_replicate]
      rfl
    · -- a start that was recorded too late was claimed before, so nobody claims it first after it
      by_contra hboth
      have hcame := hlate_iff.mp (by omega)
      have hwon := hlast_iff.mp (by omega)
      have hpair := (List.pairwise_append.mp horder).2.1
      exact (List.pairwise_append.mp hpair).2.2 _ hcame _ hwon k rfl rfl
    · rcases List.mem_append.mp hwon with hwon | hwon
      · exact absurd rfl ((tends_of_registering hwon).2 k)
      rcases List.mem_append.mp hwon with hwon | hwon
      · exact absurd rfl (hstart.tends _ hwon).2.2
      · have hone := hlast_iff.mpr hwon
        omega
    · rcases hstart.error.2 with ⟨x, hx, hill⟩ | hcame
      · exact ⟨x, List.mem_append_right _ (List.mem_append_left _ hx), hill⟩
      · have hone := hlate_iff.mpr hcame
        omega

end Creates

end Sandbox
end LintGate
