import LintGate.Proofs.Sandbox.Custody
import LintGate.Proofs.Verify.Course

/-!
# The custody of a whole run

Most of what a run asks has nothing to do with containers: files, git, the sources of the tool,
linting and output leave the custody of a program as it is.  What is left are the start of the
container and its last holder, who gives it up at the end.

## Main definitions

* `Request.Neutral` — requests that leave custody as it is.

## Main results

* `keeps_of_asks` — programs that only ask such requests.
* `keeps_verify`, `keeps_perform` — **a run ends without a container in its hands.**
* `keeps_interrupt` — so does what an interrupt does.
-/

namespace LintGate

open Program

/-! ### Neutral requests -/

/-- Whether a command neither starts a container nor removes one. -/
def Command.Neutral (c : Command) : Prop := c.startOf? = none ∧ c.removalOf? = none

/-- Whether a request has nothing to do with the custody of containers. -/
def Request.Neutral : Request → Prop
  | .run c => c.Neutral
  | .token => False
  | .registry (.isRemoved _) => True
  | .registry _ => False
  | _ => True

theorem Request.IsFile.neutral {r : Request} (h : r.IsFile) : r.Neutral := by
  cases r <;> first
    | exact trivial
    | exact h.elim

theorem Request.Reads.neutral {r : Request} (h : r.Reads) : r.Neutral := by
  cases r <;> first
    | exact trivial
    | exact h.elim

theorem Request.Prints.neutral {r : Request} (h : r.Prints) : r.Neutral := by
  cases r <;> first
    | exact trivial
    | exact h.elim

/-- A command whose first word is neither that of a start nor that of a removal. -/
theorem Command.neutral_of_head {program : String} {word : String} {args : List String}
    {dir : Option String} (hrun : word ≠ "run") (hrm : word ≠ "rm") :
    Command.Neutral ⟨program, word :: args, dir⟩ := by
  constructor
  · unfold startOf?
    split
    · next h => exact absurd (List.cons.inj h).1 hrun
    · rfl
  · unfold removalOf?
    split
    · next h => exact absurd (List.cons.inj h).1 hrm
    · rfl

theorem Command.neutral_singleton {program word : String} {dir : Option String} :
    Command.Neutral ⟨program, [word], dir⟩ := by
  constructor
  · simp [startOf?]
  · simp [removalOf?]

theorem Git.Searches.neutral {root : String} {r : Request} (h : Git.Searches root r) :
    r.Neutral := by
  rcases h with hreads | ⟨x, rfl⟩
  · exact hreads.neutral
  · exact Command.neutral_of_head (by decide) (by decide)

theorem Strategy.Probes.neutral {c : Config} {r : Request} (h : Strategy.Probes c r) :
    r.Neutral := by
  rcases h with rfl | rfl | rfl <;> exact Command.neutral_singleton

theorem Installer.Installs.neutral {i : Installer} {t : ToolConfig} {r : Request}
    (h : i.Installs t r) : r.Neutral := by
  rcases h with hfile | ⟨p, rfl⟩ | rfl | ⟨archive, dir, rfl⟩
  · exact hfile.neutral
  · exact trivial
  · exact Command.neutral_singleton
  · exact Command.neutral_of_head (by decide) (by decide)

section Programs

variable {α β : Type} {s : Multiset Container} {a : Option Container}

/-- Who only asks what is neutral keeps its custody as it is. -/
theorem keeps_of_asks {p : Program α} (hp : p.Asks Request.Neutral) :
    Keeps (fun _ k => k = ⟨s, .free, a⟩) p ⟨s, .free, a⟩ := by
  induction p with
  | done x => exact rfl
  | ask r next ih =>
    obtain ⟨hr, hnext⟩ := hp
    have hstays : Custody.permits ⟨s, .free, a⟩ r ∧
        ∀ x, Custody.next ⟨s, .free, a⟩ r x = ⟨s, .free, a⟩ := by
      cases r with
      | run c => exact ⟨hr, fun _ => rfl⟩
      | token => exact hr.elim
      | registry op =>
        cases op with
        | isRemoved c => exact ⟨trivial, fun _ => rfl⟩
        | _ => exact hr.elim
      | _ => exact ⟨trivial, fun _ => rfl⟩
    refine ⟨hstays.1, fun x => ?_⟩
    rw [hstays.2 x]
    exact ih x (hnext x)

/-- One program after another, which only runs if there was no fault. -/
theorem keeps_action {p : Action α} {f : α → Action β} {post : Except Fault β → Custody → Prop}
    {k : Custody} (hp : Keeps (fun x k' => match x with
      | .ok y => Keeps post (f y).run k'
      | .error e => post (.error e) k') p.run k) : Keeps post (p >>= f).run k := by
  rw [Action.run_bind_eq]
  refine keeps_bind (hp.mono fun x k' hx => ?_)
  cases x with
  | ok y => exact hx
  | error e => exact hx

/-- A program after one that only asks what is neutral. -/
theorem keeps_action_of_asks {p : Action α} {f : α → Action β}
    {post : Except Fault β → Custody → Prop} (hp : p.run.Asks Request.Neutral)
    (hfault : ∀ e, post (.error e) ⟨s, .free, a⟩)
    (hf : ∀ y, Keeps post (f y).run ⟨s, .free, a⟩) : Keeps post (p >>= f).run ⟨s, .free, a⟩ := by
  refine keeps_action ((keeps_of_asks hp).mono fun x k hk => ?_)
  subst hk
  cases x with
  | ok y => exact hf y
  | error e => exact hfault e

end Programs

/-! ### The stages of a run -/

theorem Git.asks_findScripts (root : String) (c : DiscoveryConfig) :
    (findScripts root c).run.Asks Request.Neutral := by
  have hquery : Request.Neutral (.run (workTreeQuery root)) :=
    Command.neutral_of_head (by decide) (by decide)
  have hsearch : ∀ r, Searches root r → r.Neutral := fun _ hr => hr.neutral
  refine Action.asks_bind ?_ fun _ => ?_
  · refine Action.asks_bind (Action.asks_trial (asks_send hquery) _) fun o => ?_
    split
    · exact Action.asks_pure _
    · exact Action.asks_throw _
  · refine Action.asks_bind trivial fun filter => ?_
    refine Action.asks_bind (Action.asks_lift (asks_send trivial)) fun tree => ?_
    exact Discovery.asks_sift (fun x => (asks_isIgnored root x).mono hsearch) _

/-- The strategies by which no script starts or removes a container. -/
def Strategy.Harmless (strategy : Strategy) : Prop := ∀ x, (strategy.command x).Neutral

theorem Strategy.harmless_local (executable root : String) (disabled : List UInt32) :
    (Strategy.hostBinary ⟨executable, root, lintOptions disabled⟩).Harmless ∧
      (Strategy.downloaded ⟨executable, root, lintOptions disabled⟩).Harmless :=
  ⟨fun _ => Command.neutral_of_head (by decide) (by decide),
    fun _ => Command.neutral_of_head (by decide) (by decide)⟩

theorem Strategy.harmless_sandbox (box : Sandbox) (args : List String) :
    (Strategy.sandbox box args).Harmless :=
  fun _ => Command.neutral_of_head (by decide) (by decide)

theorem Strategy.Harmless.asks_lintAll {strategy : Strategy} (h : strategy.Harmless) (jobs : Nat)
    (ss : List ScriptPath) : (strategy.lintAll jobs ss).run.Asks Request.Neutral := by
  refine LintRun.asks_lint jobs fun x _ => (asks_lint strategy x).mono fun r hr => ?_
  rcases hr with rfl | ⟨k, -, rfl⟩
  · exact h x
  · exact trivial

/-! ### Whole runs -/

/-- A program that ends without a container in its hands, and owes nothing. -/
def EndsFree {α : Type} (_ : α) (k : Custody) : Prop := k.held = 0 ∧ k.duty = .free

/-- What a strategy holds: its container, if it has one. -/
def Strategy.holding (strategy : Strategy) : Multiset Container :=
  match strategy.container? with
  | some k => {k}
  | none => 0

namespace Verify

variable {a : Option Container}

theorem keeps_afterLinting (o : VerifyOptions) (c : Config) (allowed : AllowList)
    (scripts : List ScriptPath) (outcomes : Outcomes) :
    Keeps EndsFree (afterLinting o c allowed scripts outcomes).run ⟨0, .free, a⟩ := by
  have hasks : (afterLinting o c allowed scripts outcomes).run.Asks Request.Neutral :=
    Action.asks_bind ((asks_write _).mono fun _ hr => hr.neutral) fun _ => Action.asks_pure _
  exact (keeps_of_asks hasks).mono fun _ _ hk => hk ▸ ⟨rfl, rfl⟩

/-- The container is given up after linting, whatever came of it. -/
theorem keeps_afterProviding {strategy : Strategy} (h : strategy.Harmless) (o : VerifyOptions)
    (c : Config) (allowed : AllowList) (scripts : List ScriptPath) :
    Keeps EndsFree (afterProviding o c allowed scripts strategy).run
      ⟨strategy.holding, .free, a⟩ := by
  refine keeps_action ?_
  have hrelease : Keeps (fun _ k => k = ⟨0, .free, a⟩) strategy.release
      ⟨strategy.holding, .free, a⟩ := by
    unfold Strategy.release Strategy.holding
    cases strategy.container? with
    | none => exact rfl
    | some k =>
      refine (keeps_drop (Multiset.mem_singleton_self k)).mono fun _ k' hk => hk.trans ?_
      exact congrArg (Custody.mk · _ _) (Multiset.erase_cons_head k 0)
  refine keeps_bind_of (keeps_of_asks (h.asks_lintAll o.jobs scripts)) fun x => ?_
  refine keeps_bind_of hrelease fun _ => ?_
  cases x with
  | ok outcomes => exact keeps_afterLinting o c allowed scripts outcomes
  | error f => exact ⟨rfl, rfl⟩

theorem keeps_afterFinding (u : Surroundings) (o : VerifyOptions) (root : String) (c : Config)
    (allowed : AllowList) (scripts : List ScriptPath) :
    Keeps EndsFree (afterFinding u o root c allowed scripts).run {} := by
  have hselect : (ExceptT.mk ((Detect.probe u).select c) : Action ToolSource).run.Asks
      Request.Neutral := (Strategy.asks_select u c).mono fun _ hr => hr.neutral
  unfold afterFinding Strategy.provide
  rw [LawfulMonad.bind_assoc]
  refine keeps_action_of_asks hselect (fun _ => ⟨rfl, rfl⟩) fun source => ?_
  cases source with
  | hostBinary => exact keeps_afterProviding (Strategy.harmless_local ..).1 o c allowed scripts
  | sandbox =>
    unfold Strategy.ofSource
    rw [LawfulMonad.bind_assoc]
    refine keeps_action ((keeps_create c.sandbox c.tool root).mono fun x k hk => ?_)
    cases x with
    | ok box =>
      subst hk
      exact keeps_afterProviding (Strategy.harmless_sandbox box _) o c allowed scripts
    | error f =>
      subst hk
      exact ⟨rfl, rfl⟩
  | download p =>
    unfold Strategy.ofSource
    rw [LawfulMonad.bind_assoc]
    have hensure := (Installer.asks_ensure (.ofSurroundings u) c.tool p).mono fun _ hr => hr.neutral
    refine keeps_action_of_asks hensure (fun _ => ⟨rfl, rfl⟩) fun executable => ?_
    exact keeps_afterProviding (Strategy.harmless_local ..).2 o c allowed scripts

/-- **A run that verifies a repository** ends without a container in its hands. -/
theorem keeps_verify (u : Surroundings) (o : VerifyOptions) :
    Keeps EndsFree (run u o).run {} := by
  rw [run_eq]
  refine keeps_action_of_asks ((asks_load u o).mono fun _ hr => hr.neutral) (fun _ => ⟨rfl, rfl⟩)
    fun l => ?_
  refine keeps_action_of_asks (Git.asks_findScripts _ _) (fun _ => ⟨rfl, rfl⟩) fun scripts => ?_
  exact keeps_afterFinding u o l.1 l.2.1 l.2.2 scripts

end Verify

theorem ToolStatusTask.asks_run (u : Surroundings) (path : String) (config : Option String)
    (format : Format) : (run u path config format).run.Asks Request.Neutral := by
  refine Action.asks_bind (Action.asks_trial (asks_send trivial) _) fun root => ?_
  refine Action.asks_bind ((asks_loadConfig u config root).mono fun _ hr => hr.neutral) fun c => ?_
  refine Action.asks_bind (Action.asks_lift ?_) fun report => Action.asks_trial ?_ _
  · refine Asks.bind (Asks.bind (Detect.asks_tool ?_ ?_) fun host => ?_) fun facts => ?_
    · exact Command.neutral_singleton
    · exact Command.neutral_singleton
    · refine Asks.bind (Detect.asks_runtimeReachable ?_) fun reachable => trivial
      exact Command.neutral_singleton
    · refine Asks.bind ?_ fun cached => trivial
      exact (Installer.asks_cached _ _).mono fun _ hr => hr.neutral
  · exact (Verify.asks_print _ _).mono fun _ hr => hr.neutral

/-- **A run ends without a container in its hands**, whatever it is asked to do. -/
theorem keeps_perform (u : Surroundings) (i : Invocation) :
    Keeps EndsFree (i.perform u).run {} := by
  obtain ⟨task, config, verbosity, quiet⟩ := i
  cases task with
  | verify path jobs format => exact Verify.keeps_verify u ⟨path, config, jobs, format⟩
  | toolStatus path format =>
    exact keeps_action_of_asks (ToolStatusTask.asks_run u path config format)
      (fun _ => ⟨rfl, rfl⟩) fun _ => ⟨rfl, rfl⟩

/-- What an interrupt does ends so too. -/
theorem keeps_interrupt : Keeps EndsFree Gate.interrupt {} := by
  have htell : (Program.send (.tell Gate.interruptText)).Asks Request.Neutral := asks_send trivial
  refine keeps_bind_of (keeps_of_asks htell) fun _ => ?_
  exact keeps_bind_of keeps_removeAll fun n => ⟨rfl, rfl⟩

end LintGate
