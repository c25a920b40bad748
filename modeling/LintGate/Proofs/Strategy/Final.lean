import LintGate.Proofs.Interrupt.Beside
import LintGate.Proofs.Interrupt.Custody
import LintGate.Proofs.Sandbox.Ways

/-!
# The source that was chosen is final

Once a source of the tool is chosen, nothing else is done than to provide it.  A container that
does not run is the end of the matter: it is told with its image, no other source is tried, and
the container is removed unless an interrupt that took hold of it meanwhile does that.

## Main definitions

* `Strategy.Effects` — what is done to provide a source, and what that comes to.
* `World.provision` — providing the tool, as one of the programs of a world.

## Main results

* `Strategy.effects_of_path` — what is done to provide a source, whatever is answered.
* `Strategy.selected_source_final` — **the choice is followed by its own effects only**, alone and
  beside interrupts.
-/

namespace LintGate

open Program

namespace Strategy

/-- What is done to provide a source, and what that comes to. -/
inductive Effects (i : Installer) (c : Config) (root : String) :
    ToolSource → List Exchange → Except Fault Strategy → Prop
  /-- Nothing is to be done for an executable of the host. -/
  | host : Effects i c root .hostBinary []
      (.ok (.hostBinary ⟨c.tool.name, root, lintOptions c.tool.disabledRules⟩))
  /-- One command starts a container. -/
  | sandbox {es : List Exchange} {k : Container} (hruntime : k.runtime = c.sandbox.runtime)
      (htends : ∀ e ∈ es, e.request.TendsTo k)
      (hcommands : commandsOf es = [Sandbox.startCommand c.tool.image root k])
      (hruns : Sandbox.Runs c.tool.image root k es) :
    Effects i c root .sandbox es
      (.ok (.sandbox ⟨k, c.tool.name, root⟩ (lintOptions c.tool.disabledRules)))
  /-- If the container does not run, it may be removed, and nothing else is done. -/
  | noSandbox {es : List Exchange} {k : Container} {m : Nat} {reason : String}
      (hruntime : k.runtime = c.sandbox.runtime) (htends : ∀ e ∈ es, e.request.TendsTo k)
      (hcommands : commandsOf es =
        Sandbox.startCommand c.tool.image root k :: List.replicate m k.removeCommand)
      (hruns : ¬ Sandbox.Runs c.tool.image root k es) :
    Effects i c root .sandbox es (.error (.sandboxCreation c.tool.image reason))
  /-- A release is installed. -/
  | download {p : Platform} {es : List Exchange} {x : Except Fault Strategy}
      (hinstalls : ∀ e ∈ es, i.Installs c.tool e.request ∧ e.request.Neutral)
      (hlocal : ∀ strategy, x = .ok strategy → ∃ executable,
        strategy = .downloaded ⟨executable, root, lintOptions c.tool.disabledRules⟩) :
    Effects i c root (.download p) es x

variable {p : Probe Program} {i : Installer} {c : Config} {root : String} {es : List Exchange}
  {x : Except Fault Strategy}

/-- The ways to provide a sandbox. -/
theorem creates_of_ofSource (h : Path (ofSource i c root .sandbox).run es x) :
    ∃ token y, Sandbox.Creates c.sandbox c.tool root token es y ∧
      x = y.map fun box => .sandbox box (lintOptions c.tool.disabledRules) := by
  rcases Action.path_bind h with ⟨f, hcreate, rfl⟩ | ⟨first, box, rest, rfl, hcreate, hrest⟩
  · obtain ⟨token, hcreate⟩ := Sandbox.creates_of_path hcreate
    exact ⟨token, _, hcreate, rfl⟩
  · obtain ⟨token, hcreate⟩ := Sandbox.creates_of_path hcreate
    cases hrest with
    | done =>
      rw [List.append_nil]
      exact ⟨token, _, hcreate, rfl⟩

/-- **What is done to provide a source**, whatever is answered. -/
theorem effects_of_path {source : ToolSource} (h : Path (ofSource i c root source).run es x) :
    Effects i c root source es x := by
  cases source with
  | hostBinary =>
    cases h with
    | done => exact .host
  | sandbox =>
    obtain ⟨token, y, hcreate, rfl⟩ := creates_of_ofSource h
    have hruns := hcreate.isOk_iff
    cases y with
    | ok box =>
      have hbox : box = ⟨⟨gateName token, c.sandbox.runtime⟩, c.tool.name, root⟩ := by
        cases hcreate with
        | started _ => rfl
      rw [hbox] at hcreate ⊢
      exact .sandbox rfl hcreate.tends hcreate.commands (hruns.mp rfl)
    | error f =>
      obtain ⟨reason, rfl⟩ := hcreate.error
      obtain ⟨m, hcommands, -⟩ := hcreate.removals
      exact .noSandbox rfl hcreate.tends hcommands fun hk =>
        Bool.false_ne_true (hruns.mpr hk)
  | download platform =>
    have hasks : (ofSource i c root (.download platform)).run.Asks (i.Installs c.tool) :=
      Action.asks_bind (Installer.asks_ensure i c.tool platform) fun _ => Action.asks_pure _
    refine .download (fun e he => ?_) fun strategy hx => ?_
    · exact ⟨h.forall_mem hasks e he, (h.forall_mem hasks e he).neutral⟩
    · subst hx
      rcases Action.path_bind h with ⟨f, -, hf⟩ | ⟨first, executable, rest, -, -, hrest⟩
      · cases hf
      · cases hrest with
        | done => exact ⟨executable, rfl⟩

/-- The tool is provided in two parts: a source is chosen, and then it is provided. -/
theorem path_provide (h : Path (provide p i c root).run es x) :
    (∃ f, Path (p.select c) es (.error f) ∧ x = .error f) ∨
      ∃ choosing source building, es = choosing ++ building ∧
        Path (p.select c) choosing (.ok source) ∧
        Path (ofSource i c root source).run building x := by
  rcases Action.path_bind h with ⟨f, hselect, rfl⟩ | ⟨choosing, source, building, rfl, hselect, h⟩
  · exact Or.inl ⟨f, hselect, rfl⟩
  · exact Or.inr ⟨choosing, source, building, rfl, hselect, h⟩

end Strategy

theorem Request.Neutral.enlists {e : Exchange} (h : e.request.Neutral) (k : Container) :
    e.enlists k = false := by
  obtain ⟨r, x⟩ := e
  cases r with
  | registry op =>
    cases op with
    | enlist k' => exact h.elim
    | _ => rfl
  | _ => rfl

/-- Providing the tool leaves one container to interrupts at most. -/
theorem Strategy.countP_enlists {p : Probe Program} {i : Installer} {c : Config} {root : String}
    {es : List Exchange} {x : Except Fault Strategy} (hp : (p.select c).Asks Request.Neutral)
    (h : Path (provide p i c root).run es x) (k : Container) :
    (es.countP fun e => e.enlists k) ≤ 1 := by
  have hnone {es : List Exchange} (hes : ∀ e ∈ es, e.request.Neutral) :
      (es.countP fun e => e.enlists k) = 0 :=
    List.countP_eq_zero.mpr fun e he => by simp [(hes e he).enlists k]
  rcases path_provide h with ⟨f, hselect, -⟩ | ⟨choosing, source, building, rfl, hselect, hbuild⟩
  · rw [hnone (hselect.forall_mem hp)]
    exact Nat.zero_le 1
  rw [List.countP_append, hnone (hselect.forall_mem hp), zero_add]
  cases source with
  | hostBinary =>
    cases hbuild with
    | done => exact Nat.zero_le 1
  | sandbox =>
    obtain ⟨token, y, hcreate, -⟩ := creates_of_ofSource hbuild
    exact hcreate.countP_enlists k
  | download platform =>
    cases effects_of_path hbuild with
    | download hinstalls _ =>
      rw [hnone fun e he => (hinstalls e he).2]
      exact Nat.zero_le 1

namespace World

/-- What providing the tool comes to, as the result of a program: a sandbox is held. -/
def provided : Except Fault Strategy → Result
  | .ok (.sandbox box _) => .created (.ok box)
  | .ok _ => .dropped
  | .error f => .created (.error f)

/-- Providing the tool, as one of the programs of a world. -/
def provision (p : Probe Program) (i : Installer) (c : Config) (root : String) : Program Result :=
  (Strategy.provide p i c root).run.bind fun x => .done (provided x)

variable {p : Probe Program} {i : Installer} {c : Config} {root : String}

/-- Providing the tool ends with a container in its hands only if that is the tool's. -/
theorem keeps_provision (hp : (p.select c).Asks Request.Neutral) :
    Keeps Result.leaves (provision p i c root) {} := by
  have hselect : (ExceptT.mk (p.select c) : Action ToolSource).run.Asks Request.Neutral := hp
  refine keeps_bind (keeps_action_of_asks hselect (fun _ => ⟨rfl, rfl⟩) fun source => ?_)
  cases source with
  | hostBinary => exact ⟨rfl, rfl⟩
  | sandbox =>
    refine keeps_action ((keeps_create c.sandbox c.tool root).mono fun x k hk => ?_)
    cases x with
    | ok box => exact hk
    | error f => exact hk ▸ ⟨rfl, rfl⟩
  | download platform =>
    have hensure := (Installer.asks_ensure i c.tool platform).mono fun _ hr => hr.neutral
    exact keeps_action_of_asks hensure (fun _ => ⟨rfl, rfl⟩) fun executable => ⟨rfl, rfl⟩

/-- A machine on which no command can be run. -/
def refusing : Environment := fun log r =>
  match r with
  | .run _ => .error .missing
  | r => smooth log r

/-- Providing the tool beside interrupts keeps the books. -/
theorem ledger_provision {n : Nat} {env : Environment} {schedule : List Nat} {w : World}
    (hp : (p.select c).Asks Request.Neutral)
    (hrun : Pool.turns env schedule { threads := amid (provision p i c root) n } = some w) :
    ∃ ps, Ledger (amid (provision p i c root) n) w ps := by
  refine (ledger_start fun q hq => ?_).turns hrun
  rcases List.mem_cons.mp hq with rfl | hq
  · exact keeps_provision hp
  · rw [List.eq_of_mem_replicate hq]
    exact keeps_sweep

/-- Who is done with a fault has nothing in its hands. -/
theorem not_has_of_leaves {f : Fault} {k : Custody} (h : Result.leaves (.created (.error f)) k)
    (c : Container) : ¬ k.Has c := by
  obtain ⟨hheld, hduty⟩ : k.held = 0 ∧ k.duty = .free := h
  rintro (hhas | hhas)
  · rw [hheld] at hhas
    exact Multiset.notMem_zero c hhas
  · rw [hduty] at hhas
    cases hhas

theorem path_of_provision {es : List Exchange} {f : Fault}
    (h : Path (provision p i c root) es (.created (.error f))) :
    Path (Strategy.provide p i c root).run es (.error f) := by
  obtain ⟨first, x, rest, rfl, hx, hrest⟩ := path_bind h
  generalize ha : Result.created (.error f) = a at hrest
  cases hrest with
  | done =>
    rw [List.append_nil]
    cases x with
    | ok strategy => cases strategy <;> cases ha
    | error f' =>
      cases ha
      exact hx

end World

namespace Strategy

/-- What becomes of a container that did not run: it was removed once by whoever was to provide it,
or an interrupt took hold of it before the runtime failed to start it, and then that one removes
it. -/
structure GivenUp (c : Config) (root : String) (w : World) (es : List Exchange) (k : Container)
    (m : Nat) : Prop where
  runtime : k.runtime = c.sandbox.runtime
  commands : commandsOf es =
    Sandbox.startCommand c.tool.image root k :: List.replicate m k.removeCommand
  once : m = 1 ∨ m = 0 ∧ (∃ j ≠ 0, ⟨j, .registry (.acquire k), true⟩ ∈ w.log) ∧
    ∃ x, ⟨.run (Sandbox.startCommand c.tool.image root k), x⟩ ∈ es ∧ ranWell x = false
  removed : w.isGone k = true → 1 ≤ (w.story k).removals

/-- **A container that did not run is given up**, if whoever was to provide it is done. -/
theorem givenUp_of_creates {p : Probe Program} {i : Installer} {c : Config} {root token : String}
    {n : Nat} {w : World} {ps : Cast} {q : Program Result} {k₀ : Custody} {f : Fault}
    {choosing building : List Exchange}
    (hw : World.Ledger (World.amid (World.provision p i c root) n) w ps)
    (hdone : ps[0]? = some (q, k₀)) (hfree : ∀ k, ¬ k₀.Has k)
    (hdid : w.did 0 = choosing ++ building)
    (hneutral : ∀ e ∈ choosing, e.request.Neutral)
    (hcreate : Sandbox.Creates c.sandbox c.tool root token building (.error f)) :
    ∃ m, GivenUp c root w building ⟨gateName token, c.sandbox.runtime⟩ m := by
  have horder := hw.lawful.order_did 0
  rw [hdid] at horder
  obtain ⟨m, hcommands, hle, hge, hfailed⟩ := hcreate.removals
  have hone := hle (List.pairwise_append.mp horder).2.1
  refine ⟨m, rfl, hcommands, ?_, fun hgone => ?_⟩
  · by_cases hm : m = 0
    · refine Or.inr ⟨hm, ?_, hfailed hm⟩
      by_contra halone
      have hmade : .made ⟨gateName token, c.sandbox.runtime⟩ ∈ w.did 0 :=
        hdid ▸ List.mem_append_right _ hcreate.makes
      have hwon := hw.won_of_alone hdone (hfree _) hmade fun j hj hmem => halone ⟨j, hj, hmem⟩
      rw [hdid] at hwon
      rcases List.mem_append.mp hwon with hwon | hwon
      · exact hneutral _ hwon
      · have hpos := hge hwon
        omega
    · exact Or.inl (by omega)
  · have hremovals := (hw.sound.gone hgone).1
    split at hremovals <;> omega

/-- **The source that was chosen is final.**  Whatever a machine answers, providing the tool does
what its probe does, and then only what the chosen source takes.  Beside any number of interrupts,
a tool that could not be provided leaves no container to them that is still held, and a container
that did not run is given up. -/
theorem selected_source_final (p : Probe Program) (i : Installer) (c : Config) (root : String) :
    (∀ es x, Path (provide p i c root).run es x →
      (∃ f, Path (p.select c) es (.error f) ∧ x = .error f) ∨
        ∃ choosing source building, es = choosing ++ building ∧
          Path (p.select c) choosing (.ok source) ∧ Effects i c root source building x) ∧
    ((p.select c).Asks Request.Neutral → ∀ n env schedule w f,
      Pool.turns env schedule { threads := World.amid (World.provision p i c root) n } = some w →
      w.threads[0]? = some (.done (.created (.error f))) →
      Path (provide p i c root).run (w.did 0) (.error f) ∧
      (∀ k ∈ w.registry.pending, (w.registry.cell? k).any (0 < ·.handles) = false) ∧
      ∀ choosing building, w.did 0 = choosing ++ building →
        Path (p.select c) choosing (.ok .sandbox) → ∃ k m, GivenUp c root w building k m) := by
  refine ⟨fun es x h => ?_, fun hp n env schedule w f hrun hdone => ?_⟩
  · refine (path_provide h).imp id ?_
    rintro ⟨choosing, source, building, he, hselect, hbuild⟩
    exact ⟨choosing, source, building, he, hselect, effects_of_path hbuild⟩
  obtain ⟨ps, hw⟩ := World.ledger_provision hp hrun
  obtain ⟨k₀, hk₀⟩ := hw.sound.getElem?_cast hdone
  have hfree := World.not_has_of_leaves (hw.sound.keeps _ (List.mem_of_getElem? hk₀))
  have hpath : Path (provide p i c root).run (w.did 0) (.error f) :=
    World.path_of_provision (hw.leads 0 _ _ _ rfl hk₀).1.path
  refine ⟨hpath, fun k hk => hw.dead hk₀ (hfree k) (countP_enlists hp hpath k) hk, ?_⟩
  intro choosing building hdid hselect
  rw [hdid] at hpath
  -- What was chosen is a sandbox, so what follows is the creation of one.
  rcases path_provide hpath with ⟨f', hfault, -⟩ | ⟨first, source, rest, hsplit, hselect', hbuild⟩
  · obtain ⟨-, hx, -⟩ := hselect.unique hfault (List.append_nil (choosing ++ building)).symm
    cases hx
  obtain ⟨rfl, hx, rfl⟩ := hselect.unique hselect' hsplit
  cases hx
  obtain ⟨token, y, hcreate, hy⟩ := creates_of_ofSource hbuild
  cases y with
  | ok box => cases hy
  | error f' => exact ⟨_, givenUp_of_creates hw hk₀ hfree hdid (hselect.forall_mem hp) hcreate⟩

/-- A probe that finds a container runtime and no executable. -/
def reachable : Probe Program := .ofFacts ⟨.absent, true, none, "linux/x86_64"⟩

/-- A container that the runtime refuses to start is removed at once.  The interrupt beside it
comes too late to take hold of the container. -/
theorem selected_source_final_refused :
    ∃ w f k, Pool.turns World.refusing [0, 0, 0, 1, 0, 0, 0, 0, 1]
        { threads := World.amid (World.provision reachable ⟨"/tools"⟩ {} "/r") 1 } = some w ∧
      w.threads[1]? = some (.done (.swept 0)) ∧
      Effects ⟨"/tools"⟩ {} "/r" .sandbox (w.did 0) (.error f) ∧
      commandsOf (w.did 0) =
        [Sandbox.startCommand ({} : Config).tool.image "/r" k, k.removeCommand] ∧
      ∀ k ∈ w.registry.pending, (w.registry.cell? k).any (0 < ·.handles) = false := by
  obtain ⟨w, f, hrun, hdone, hswept, htwo⟩ : ∃ w f,
      Pool.turns World.refusing [0, 0, 0, 1, 0, 0, 0, 0, 1]
        { threads := World.amid (World.provision reachable ⟨"/tools"⟩ {} "/r") 1 } = some w ∧
      w.threads[0]? = some (.done (.created (.error f))) ∧
      w.threads[1]? = some (.done (.swept 0)) ∧ (commandsOf (w.did 0)).length = 2 :=
    ⟨_, _, rfl, rfl, rfl, rfl⟩
  have hselect : Path (reachable.select {}) [] (.ok .sandbox) := .done _
  obtain ⟨hpath, hdead, hgiven⟩ := (selected_source_final reachable ⟨"/tools"⟩ {} "/r").2 trivial
    1 World.refusing _ w f hrun hdone
  obtain ⟨k, m, hk⟩ := hgiven [] (w.did 0) rfl hselect
  have hone : m = 1 := by
    rw [hk.commands, List.length_cons, List.length_replicate] at htwo
    exact Nat.succ.inj htwo
  subst hone
  refine ⟨w, f, k, hrun, hswept, ?_, hk.commands, hdead⟩
  rcases (selected_source_final reachable ⟨"/tools"⟩ {} "/r").1 _ _ hpath with
    ⟨f', hfault, -⟩ | ⟨choosing, source, building, he, hchosen, heffects⟩
  · obtain ⟨-, hx, -⟩ := hselect.unique hfault (List.append_nil (w.did 0)).symm
    cases hx
  · obtain ⟨rfl, hx, rfl⟩ := hselect.unique hchosen he
    cases hx
    exact heffects

/-- An interrupt that took hold of a container in time keeps it from being removed by whoever
could not start it. -/
theorem removal_left_to_interrupt :
    ∃ w f, Pool.turns World.refusing [0, 0, 0, 1, 1, 0, 0]
        { threads := World.amid (World.provision reachable ⟨"/tools"⟩ {} "/r") 1 } = some w ∧
      w.threads[0]? = some (.done (.created (.error f))) ∧
      commandsOf (w.did 0) =
        [Sandbox.startCommand ({} : Config).tool.image "/r" ⟨"shellcheck-gate-a", "docker"⟩] :=
  ⟨_, _, rfl, rfl, rfl⟩

end Strategy
end LintGate
