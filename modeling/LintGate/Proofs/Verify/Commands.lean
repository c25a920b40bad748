import LintGate.Proofs.Verify.Process
import LintGate.Proofs.Verify.Sandboxed

/-!
# The commands of a run with a container

Once a run has chosen the container, the commands that it asks for are known but for the order in
which several jobs lint: the runtime is asked whether it is there, then to start the container,
then, if it did, to lint each script once, and at last to remove the container.  Every way to the
end of a run passes the removal, before anything is printed.

## Main definitions

* `Registry.only` — a registry with one container.
* `Config.infoCommand`, `Command.AsksHost` — the question for the runtime, and those before it.
* `Gate.Balanced` — the commands of a run with a container, and the place of the removal.

## Main results

* `Registry.after_opening`, `Registry.after_removal` — the registry from a start to a removal.
* `Container.removeAll_eq_zero` — there is nothing to remove behind a removal.
* `Verify.ran_prepare` — the run of the stages before linting, once a source was chosen.
* `Gate.sandbox_balanced` — **the commands of a run with a container are balanced.**
-/

namespace LintGate

open Program

variable {σ : Type} {answer : (r : Request) → σ → r.Answer × σ} {registry : σ → Registry}
  {s s' : σ} {asked : List Request}

/-! ### One container in a registry -/

namespace Registry

/-- A registry with one container, which is left to an interrupt. -/
def only (k : Container) (phase : Phase) (handles : Nat) : Registry := ⟨[⟨k, phase, handles⟩], [k]⟩

variable {k : Container} {phase : Phase} {handles : Nat}

@[simp] theorem cell?_only : (only k phase handles).cell? k = some ⟨k, phase, handles⟩ := by
  simp [only, cell?]

@[simp] theorem modify_only (f : Cell → Cell) :
    (only k phase handles).modify k f = ⟨[f ⟨k, phase, handles⟩], [k]⟩ := by
  simp [only, modify]

theorem holds_only : (only k phase 1).Holds k phase := cell?_only

/-- The registry when the runtime is asked to start a container. -/
theorem after_opening (image root : String) :
    (Sandbox.opening image root k).foldl after {} = only k .starting 1 := rfl

theorem after_markStarted :
    (only k .starting handles).after (.registry (.markStarted k)) = only k .running handles := by
  simp [after, apply]
  rfl

/-- The registry when the runtime is asked to remove the container. -/
theorem after_removal : k.removal.foldl after (only k phase 1) = only k .removed 0 := by
  simp [Container.removal, after, apply, only, modify]

end Registry

/-- **There is nothing to remove behind a removal.** -/
theorem Container.removeAll_eq_zero (hk : KeepsRegistry answer registry) {k : Container}
    {phase : Phase} (hs : registry s = .only k phase 0) : (removeAll.run answer s).1 = 0 := by
  have hran : Ran answer removeAll s _ _ _ := ran_run removeAll s
  obtain ⟨_, listed, s₁, _, hdrain, hrest, -⟩ := ran_bind_iff.mp hran
  obtain ⟨-, rfl, hs₁⟩ := ran_step hk hdrain
  obtain ⟨_, held, s₂, _, hheld, hmore, -⟩ := ran_bind_iff.mp hrest
  -- the container was listed, and no place holds it any more
  have hlisted : ((registry s).apply .drain).1 = [k] := by
    rw [hs]
    rfl
  rw [hlisted] at hheld
  obtain ⟨_, free, s₃, _, hfree, hnone, -⟩ := ran_bind_iff.mp hheld
  obtain ⟨-, hfree, -⟩ := ran_step hk hfree
  have hno : free = false := by
    rw [hfree, Registry.apply_acquire_fst, hs₁, hs]
    show ((Registry.only k phase 0).cell? k).any _ = false
    rw [Registry.cell?_only]
    rfl
  rw [hno, if_neg Bool.false_ne_true] at hnone
  obtain ⟨-, rfl, -⟩ := ran_done_iff.mp hnone
  obtain ⟨_, _, s₄, _, -, hlast, -⟩ := ran_bind_iff.mp hmore
  obtain ⟨_, _, s₅, _, -, hlength, -⟩ := ran_bind_iff.mp hlast
  exact (ran_done_iff.mp hlength).2.1

/-- What is printed are no commands. -/
theorem commands_eq_nil_of_prints (h : ∀ r ∈ asked, r.Prints) : commands answer s asked = [] :=
  commands_eq_nil fun r hr c hc => by
    have hprints := h r hr
    rw [hc] at hprints
    exact hprints

/-- A removal is one command. -/
theorem Container.commands_removal (answer : (r : Request) → σ → r.Answer × σ) (k : Container)
    (s : σ) : ∃ removal, commands answer s k.removal = [(k.removeCommand, removal)] := ⟨_, rfl⟩

/-! ### Before the start -/

/-- The question whether the runtime is there. -/
def Config.infoCommand (c : Config) : Command := ⟨c.sandbox.runtime, ["info"], none⟩

/-- Whether a command is one of those before the runtime is asked: a question for git, or for the
host's own tool. -/
def Command.Precedes (c : Config) (root : String) (cmd : Command) : Prop :=
  cmd = Git.workTreeQuery root ∨ (∃ x, cmd = Git.ignoreQuery root x) ∨
    cmd = ⟨c.tool.name, ["--version"], none⟩ ∨ cmd = ⟨"which", [c.tool.name], none⟩

/-- The commands that choose the container: the last asks the runtime whether it is there. -/
theorem Strategy.ran_select_commands {u : Surroundings} {c : Config} (root : String)
    (h : Ran answer ((Detect.probe u).select c) s asked (.ok .sandbox) s') :
    ∃ front info, commands answer s asked = front ++ [(c.infoCommand, info)] ∧
      ranWell info = true ∧ ∀ e ∈ front, e.1.Precedes c root := by
  obtain ⟨first, host, s₁, rest, hhost, hrest, rfl⟩ := ran_bind_iff.mp h
  have hasks : (Detect.tool c.tool.name).Asks fun r =>
      ∃ cmd : Command, r = .run cmd ∧ cmd.Precedes c root :=
    Detect.asks_tool ⟨_, rfl, Or.inr (Or.inr (Or.inl rfl))⟩ ⟨_, rfl, Or.inr (Or.inr (Or.inr rfl))⟩
  have hfront : ∀ e ∈ commands answer s first, e.1.Precedes c root := by
    intro e he
    obtain ⟨cmd, hcmd, hprecedes⟩ := hhost.forall_mem hasks _ (run_mem_of_mem_commands he)
    cases hcmd
    exact hprecedes
  split at hrest
  · cases (ran_done_iff.mp hrest).2.1
  obtain ⟨probing, reachable, s₂, last, hprobe, hlast, rfl⟩ := ran_bind_iff.mp hrest
  obtain ⟨sent, info, s₃, done, hsent, hdone, rfl⟩ := ran_bind_iff.mp hprobe
  obtain ⟨rfl, hinfo⟩ := ran_send_iff.mp hsent
  have hwell : reachable = ranWell info ∧ done = [] := by
    cases info with
    | error f => exact ⟨(ran_done_iff.mp hdone).2.1, (ran_done_iff.mp hdone).1⟩
    | ok output => exact ⟨(ran_done_iff.mp hdone).2.1, (ran_done_iff.mp hdone).1⟩
  obtain ⟨rfl, rfl⟩ := hwell
  cases hreachable : ranWell info with
  | false =>
    rw [hreachable] at hlast
    obtain ⟨_, platform, _, _, hplatform, hend, -⟩ := ran_bind_iff.mp hlast
    split at hend
    · cases (ran_done_iff.mp hend).2.1
    · cases (ran_done_iff.mp hend).2.1
  | true =>
    rw [hreachable] at hlast
    obtain ⟨rfl, -, -⟩ := ran_done_iff.mp hlast
    refine ⟨commands answer s first, info, ?_, hreachable, hfront⟩
    obtain rfl := hhost.afterwards_eq
    rw [commands_append]
    simp [Config.infoCommand, hinfo]

/-! ### The run -/

namespace Verify

variable {u : Surroundings} {o : VerifyOptions}

/-- The run of the stages before linting, once the container was chosen. -/
theorem ran_prepare (t : Found answer u o s)
    (hselect : (((Detect.probe u).select t.config).run answer t.afterFind).1 = .ok .sandbox)
    {x : Except Fault Prepared} (h : Ran answer (prepare u o).run s asked x s') :
    ∃ probing s₁ creating y, Ran answer ((Detect.probe u).select t.config) t.afterFind probing
        (.ok .sandbox) s₁ ∧
      Ran answer (Sandbox.create t.config.sandbox t.config.tool t.root).run s₁ creating y s' ∧
      asked = t.loading ++ (t.finding ++ (probing ++ creating)) ∧
      x = y.map fun box => ⟨t.root, t.config, t.allowed, t.scripts,
        .sandbox box (lintOptions t.config.tool.disabledRules)⟩ := by
  obtain ⟨_, hfind, rfl⟩ := Action.ran_of_ran_bind t.loaded.ran h
  obtain ⟨_, hprovide, rfl⟩ := Action.ran_of_ran_bind t.found.ran hfind
  have hselected : Ran answer ((Detect.probe u).select t.config) t.afterFind _ (.ok .sandbox) _ :=
    hselect ▸ ran_run ((Detect.probe u).select t.config) t.afterFind
  simp only [Strategy.provide, LawfulMonad.bind_assoc] at hprovide
  obtain ⟨creating, hcreating, rfl⟩ := Action.ran_of_ran_bind
    (p := ExceptT.mk ((Detect.probe u).select t.config)) hselected hprovide
  simp only [Strategy.ofSource, LawfulMonad.bind_assoc, pure_bind] at hcreating
  rcases Action.ran_bind_iff.mp hcreating with ⟨f, hcreate, rfl⟩ |
    ⟨creating, box, s₂, last, hcreate, hlast, rfl⟩
  · exact ⟨_, _, _, _, hselected, hcreate, rfl, rfl⟩
  · obtain ⟨rfl, rfl, rfl⟩ := Action.ran_pure_iff.mp hlast
    exact ⟨_, _, _, _, hselected, hcreate, by rw [List.append_nil], rfl⟩

/-- What comes before the start of a container neither changes the registry nor prints. -/
theorem Found.discreet (t : Found answer u o s) {probing : List Request}
    (hprobing : ∀ r ∈ probing, Strategy.Probes t.config r) :
    ∀ r ∈ t.loading ++ (t.finding ++ probing), r.Discreet := by
  intro r hr
  rcases List.mem_append.mp hr with hr | hr
  · exact (t.loaded.asks r hr).discreet
  rcases List.mem_append.mp hr with hr | hr
  · exact t.found.asks.discreet r hr
  · exact (hprobing r hr).discreet

/-- No container is in the registry before the start. -/
theorem Found.registry_eq (hk : KeepsRegistry answer registry) (hs : registry s = {})
    (t : Found answer u o s) {probing : List Request} {s₁ : σ}
    (hselect : Ran answer ((Detect.probe u).select t.config) t.afterFind probing (.ok .sandbox)
      s₁) :
    registry s₁ = {} := by
  have hprobing := hselect.forall_mem (Strategy.asks_select u t.config)
  rw [hk.of_ran hselect fun r hr => (hprobing r hr).discreet.1,
    hk.of_ran t.found.ran fun r hr => (t.found.asks.discreet r hr).1,
    hk.of_ran t.loaded.ran fun r hr => (t.loaded.asks r hr).discreet.1, hs]

/-- The commands before the start of a container. -/
theorem Found.commands_eq (t : Found answer u o s) {probing : List Request} {s₁ : σ}
    (hselect : Ran answer ((Detect.probe u).select t.config) t.afterFind probing (.ok .sandbox)
      s₁) :
    ∃ front info, commands answer s (t.loading ++ (t.finding ++ probing)) =
        front ++ [(t.config.infoCommand, info)] ∧ ranWell info = true ∧
      ∀ e ∈ front, e.1.Precedes t.config t.root := by
  obtain ⟨front, info, hfront, hinfo, hprecedes⟩ := Strategy.ran_select_commands t.root hselect
  have hload : commands answer s t.loading = [] := commands_eq_nil fun r hr c hc => by
    have hread := t.loaded.asks r hr
    rw [hc] at hread
    exact hread
  have hfind : ∀ e ∈ commands answer t.afterLoad t.finding, e.1.Precedes t.config t.root := by
    intro e he
    obtain ⟨more, hfinding, hmore⟩ := t.found.asks
    have hmem := run_mem_of_mem_commands he
    rw [hfinding] at hmem
    rcases List.mem_cons.mp hmem with heq | hmem
    · exact Or.inl (Request.run.inj heq)
    · rcases hmore _ hmem with hread | ⟨x, heq⟩
      · exact hread.elim
      · exact Or.inr (Or.inl ⟨x, Request.run.inj heq⟩)
  refine ⟨commands answer t.afterLoad t.finding ++ front, info, ?_, hinfo, fun e he => ?_⟩
  · rw [commands_append, commands_append, hload, t.loaded.ran.afterwards_eq,
      t.found.ran.afterwards_eq, hfront, List.nil_append, List.append_assoc]
  · rcases List.mem_append.mp he with he | he
    · exact hfind e he
    · exact hprecedes e he

end Verify

namespace Gate

open Verify

/-- The commands of a run with a container: the runtime is asked whether it is there, then to
start the container, to lint the scripts if it started, and to remove it. -/
structure Balanced (answer : (r : Request) → σ → r.Answer × σ) (s : σ) (c : Config) (root : String)
    (jobs : Nat) (scripts : List ScriptPath) (asked : List Request) (k : Container)
    (start : Except OsFault Output) (linted : List (ScriptPath × Except OsFault Output)) :
    Prop where
  runtime : k.runtime = c.sandbox.runtime
  commands_eq : ∃ front info removal, commands answer s asked =
      front ++ (c.infoCommand, info) :: (Sandbox.startCommand c.tool.image root k, start) ::
        (linted.map (fun e => (Sandbox.lintCommand ⟨k, c.tool.name, root⟩
          (lintOptions c.tool.disabledRules) e.1, e.2)) ++ [(k.removeCommand, removal)]) ∧
    ranWell info = true ∧ ∀ e ∈ front, e.1.Precedes c root
  notStarted : ranWell start = false → linted = []
  started : ranWell start = true → LintedOnce jobs scripts linted
  /-- The removal comes before anything is printed, and then there is nothing left to remove. -/
  removed : ∃ quiet loud, asked = quiet ++ .run k.removeCommand :: loud ∧
    (∀ r ∈ quiet, ¬ r.Prints) ∧ (∀ r ∈ loud, r.Prints) ∧ ∀ printed, printed <+: loud →
      (Container.removeAll.run answer
        (afterwards answer s (quiet ++ .run k.removeCommand :: printed))).1 = 0

/-- The removal of the container, at the end of what neither prints nor changes the registry but
for the start. -/
theorem removed_of_discreet (hk : KeepsRegistry answer registry) {k : Container}
    (image root : String) {before body loud : List Request} (hs : registry s = {})
    (hbefore : ∀ r ∈ before, r.Discreet)
    (hbody : body = [] ∨ ∃ lints, body = .registry (.markStarted k) :: lints ∧
      ∀ r ∈ lints, r.Discreet) (hloud : ∀ r ∈ loud, r.Prints) :
    ∃ quiet, before ++ (Sandbox.opening image root k ++ (body ++ (k.removal ++ loud))) =
        quiet ++ .run k.removeCommand :: loud ∧ (∀ r ∈ quiet, ¬ r.Prints) ∧
      ∀ printed, printed <+: loud → (Container.removeAll.run answer
        (afterwards answer s (quiet ++ .run k.removeCommand :: printed))).1 = 0 := by
  let claimed : List Request := [.registry (.release k), .registry (.claim k)]
  have hsplit : ∀ more, before ++ (Sandbox.opening image root k ++ (body ++ (k.removal ++ more))) =
      (before ++ (Sandbox.opening image root k ++ (body ++ claimed))) ++
        .run k.removeCommand :: more := fun more => by
    simp only [List.append_assoc]
    rfl
  refine ⟨_, hsplit loud, fun r hr => ?_, fun printed hprinted => ?_⟩
  · simp only [List.mem_append] at hr
    rcases hr with hr | hr | hr | hr
    · exact (hbefore r hr).2
    · exact Sandbox.not_prints_opening image root k r hr
    · rcases hbody with rfl | ⟨lints, rfl, hlints⟩
      · cases hr
      · rcases List.mem_cons.mp hr with rfl | hr
        · exact id
        · exact (hlints r hr).2
    · have hremoval : r ∈ claimed ++ [.run k.removeCommand] := List.mem_append_left _ hr
      exact Container.not_prints_removal k r hremoval
  · -- whether the start was recorded or not, the container is in the registry and held once
    have hheld : ∃ phase, body.foldl Registry.after (.only k .starting 1) = .only k phase 1 := by
      rcases hbody with rfl | ⟨lints, rfl, hlints⟩
      · exact ⟨_, rfl⟩
      · refine ⟨.running, ?_⟩
        rw [List.foldl_cons, Registry.after_markStarted,
          Registry.foldl_after_eq fun r hr => (hlints r hr).1]
    obtain ⟨phase, hphase⟩ := hheld
    have hkept : ∀ r ∈ printed, ¬ r.ChangesRegistry := fun r hr =>
      (hloud r (hprinted.subset hr)).not_changesRegistry
    have hspent : registry (afterwards answer s ((before ++ (Sandbox.opening image root k ++
        (body ++ claimed))) ++ .run k.removeCommand :: printed)) = .only k .removed 0 := by
      rw [hk.registry_afterwards, ← hsplit, hs, List.foldl_append, List.foldl_append,
        List.foldl_append, List.foldl_append, Registry.foldl_after_eq fun r hr => (hbefore r hr).1,
        Registry.after_opening, hphase, Registry.after_removal, Registry.foldl_after_eq hkept]
    exact Container.removeAll_eq_zero hk hspent

section Parts

variable {u : Surroundings} {o : VerifyOptions}

/-- The parts of a run with a container: what comes before the start, the start, the linting if
there was any, the removal, and what is printed. -/
theorem balanced_of_parts (hk : KeepsRegistry answer registry) (hs : registry s = {})
    (t : Found answer u o s) {probing : List Request} {s₁ : σ}
    (hselect : Ran answer ((Detect.probe u).select t.config) t.afterFind probing (.ok .sandbox)
      s₁)
    {k : Container} (start : Except OsFault Output) (body loud : List Request)
    (linted : List (ScriptPath × Except OsFault Output))
    (hruntime : k.runtime = t.config.sandbox.runtime)
    (hbody : body = [] ∨ ∃ lints, body = .registry (.markStarted k) :: lints ∧
      ∀ r ∈ lints, r.Discreet) (hloud : ∀ r ∈ loud, r.Prints)
    (hcommands : ∃ removal, commands answer s₁
        (Sandbox.opening t.config.tool.image t.root k ++ (body ++ (k.removal ++ loud))) =
      (Sandbox.startCommand t.config.tool.image t.root k, start) ::
        (linted.map (fun e => (Sandbox.lintCommand ⟨k, t.config.tool.name, t.root⟩
          (lintOptions t.config.tool.disabledRules) e.1, e.2)) ++ [(k.removeCommand, removal)]))
    (hnot : ranWell start = false → linted = [])
    (hyes : ranWell start = true → LintedOnce o.jobs t.scripts linted) :
    Balanced answer s t.config t.root o.jobs t.scripts (t.loading ++ (t.finding ++ probing) ++
      (Sandbox.opening t.config.tool.image t.root k ++ (body ++ (k.removal ++ loud))))
      k start linted := by
  have hquiet := t.discreet (hselect.forall_mem (Strategy.asks_select u t.config))
  obtain ⟨front, info, hfront, hinfo, hprecedes⟩ := t.commands_eq hselect
  obtain ⟨removal, hcommands⟩ := hcommands
  obtain ⟨quiet, hsplit, hprints, hzero⟩ := removed_of_discreet hk
    t.config.tool.image t.root hs hquiet hbody hloud
  refine ⟨hruntime, ⟨front, info, removal, ?_, hinfo, hprecedes⟩, hnot, hyes,
    ⟨quiet, loud, hsplit, hprints, hloud, hzero⟩⟩
  have hplace : afterwards answer s (t.loading ++ (t.finding ++ probing)) = s₁ := by
    rw [afterwards_append, afterwards_append, t.loaded.ran.afterwards_eq,
      t.found.ran.afterwards_eq, hselect.afterwards_eq]
  rw [commands_append, hfront, hplace, hcommands, List.append_assoc]
  rfl

end Parts

/-- **The commands of a run with a container are balanced**, whatever the scripts, the number of
jobs and the answers of the runtime. -/
theorem sandbox_balanced (hk : KeepsRegistry answer registry) (hs : registry s = {})
    {u : Surroundings} {o : VerifyOptions} (t : Found answer u o s)
    (hselect : (((Detect.probe u).select t.config).run answer t.afterFind).1 = .ok .sandbox)
    {code : Nat} (h : Course answer u o s asked code s') :
    ∃ k start linted, Balanced answer s t.config t.root o.jobs t.scripts asked k start linted := by
  obtain ⟨first, x, s₁, rest, hverify, hend, rfl⟩ := h
  have hrest := hend.forall_mem (asks_conclude x)
  cases hverify with
  | stopped hprepare =>
    obtain ⟨probing, s₂, creating, y, hselected, hcreate, rfl, hy⟩ := ran_prepare t hselect hprepare
    obtain ⟨k, start, hruntime, ⟨-, rfl, -⟩ | ⟨hill, -, rfl, removal, hcommands⟩⟩ :=
      Sandbox.ran_create_commands hk (t.registry_eq hk hs hselected) hcreate
    · cases hy
    · have hbalanced := balanced_of_parts hk hs t hselected start [] rest [] hruntime (Or.inl rfl)
        hrest ⟨removal, ?_⟩ (fun _ => rfl)
        fun hwell => absurd (hwell.symm.trans hill) Bool.false_ne_true.symm
      · refine ⟨k, start, [], ?_⟩
        simpa only [List.append_assoc, List.nil_append] using hbalanced
      · rw [List.nil_append, ← List.append_assoc, commands_append, hcommands,
          commands_eq_nil_of_prints hrest]
        rfl
  | @linted _ linting releasing finishing p r _ s₁ s₃ s₄ _ hprepare hlint hrelease hfinish =>
    obtain ⟨probing, s₂, creating, y, hselected, hcreate, rfl, hy⟩ := ran_prepare t hselect hprepare
    obtain ⟨k, start, hruntime, ⟨hwell, rfl, rfl, hcommands⟩ | ⟨-, ⟨f, rfl⟩, -⟩⟩ :=
      Sandbox.ran_create_commands hk (t.registry_eq hk hs hselected) hcreate
    · cases hy
      have hheld : (registry s₁).Holds k .running := by
        rw [← hcreate.afterwards_eq, hk.registry_afterwards, t.registry_eq hk hs hselected,
          List.foldl_append, Registry.after_opening, List.foldl_cons, Registry.after_markStarted]
        exact Registry.holds_only
      obtain ⟨linted, hlinted, honce⟩ := hlint.linted_once hk hheld
      have hlints : ∀ r ∈ linting, r.Discreet :=
        hlint.forall_mem fun x _ => (Strategy.asks_lint _ x).mono fun r hr => hr.discreet
      have hheld' : (registry s₃).Holds k .running := by
        rw [← hlint.afterwards_eq, hk.registry_afterwards_eq fun r hr => (hlints r hr).1]
        exact hheld
      obtain rfl := Container.ran_drop hk hheld' (by decide) hrelease
      have hloud : ∀ r ∈ finishing ++ rest, r.Prints := fun r hr =>
        (List.mem_append.mp hr).elim (hfinish.forall_mem (asks_finish o _ _) r) (hrest r)
      obtain ⟨removal, hremoval⟩ := Container.commands_removal answer k s₃
      have hbalanced := balanced_of_parts hk hs t hselected start
        (.registry (.markStarted k) :: linting) (finishing ++ rest) linted hruntime
        (Or.inr ⟨linting, rfl, hlints⟩) hloud ⟨removal, ?_⟩
        (fun hill => absurd (hwell.symm.trans hill) Bool.false_ne_true.symm) fun _ => honce
      · refine ⟨k, start, linted, ?_⟩
        simpa only [List.append_assoc, List.cons_append, List.nil_append] using hbalanced
      · have hsplit : ∀ more, Sandbox.opening t.config.tool.image t.root k ++
            (.registry (.markStarted k) :: linting ++ (k.removal ++ more)) =
          (Sandbox.opening t.config.tool.image t.root k ++ [.registry (.markStarted k)]) ++
            (linting ++ (k.removal ++ more)) := fun more => by simp only [List.append_assoc]; rfl
        rw [hsplit, commands_append, hcommands, hcreate.afterwards_eq, commands_append, hlinted,
          hlint.afterwards_eq, commands_append, hremoval, commands_eq_nil_of_prints hloud]
        rfl
    · cases hy

/-- The same machine, except that the second script cannot be linted. -/
def halting : (r : Request) → Registry → r.Answer × Registry
  | .run c, g =>
    if c.args.head? = some "exec" ∧ c.args.getLast? = some "b.sh" then (.error .denied, g)
    else wellBehaved (.run c) g
  | r, g => wellBehaved r g

theorem keepsRegistry_halting : KeepsRegistry halting id := by
  refine ⟨fun _ _ => rfl, fun _ _ => rfl, fun r g h => ?_⟩
  cases r with
  | run c =>
    unfold halting
    dsimp only
    split <;> rfl
  | registry op => exact absurd rfl (h op)
  | _ => rfl

/-- Two scripts, one of which cannot be linted: the commands are balanced, and both scripts were
tried. -/
theorem sandbox_balanced_wellBehaved :
    let asked := (pipeline bare ⟨.verify "/r" 2 .human, none, 0, false⟩).history halting {}
    (∃ t : Found halting bare twoJobs {}, ∃ k start linted,
      Balanced halting {} t.config t.root 2 t.scripts asked k start linted) ∧
      ((commands halting {} asked).filter (·.1.args.head? = some "exec")).map
        (fun e => (e.1.args.getLast?, e.2.isOk)) = [(some "a.sh", true), (some "b.sh", false)] := by
  have hk := keepsRegistry_halting
  have hselect : ∀ c, (((Detect.probe bare).select c).run halting {}).1 = .ok .sandbox :=
    fun _ => rfl
  have hprepared : ((prepare bare twoJobs).run.run halting {}).1.isOk = true := by decide +kernel
  refine ⟨?_, by decide +kernel⟩
  rcases provided_of_ran hk rfl (ran_run (prepare bare twoJobs).run ({} : Registry)) with
    ⟨f, he, -⟩ | ⟨t, -⟩
  · rw [he] at hprepared
    cases hprepared
  · have hempty : t.afterFind = {} :=
      (hk.of_ran t.found.ran fun r hr => (t.found.asks.discreet r hr).1).trans
        (hk.of_ran t.loaded.ran fun r hr => (t.loaded.asks r hr).discreet.1)
    refine ⟨t.toFound, sandbox_balanced (o := twoJobs) hk rfl t.toFound ?_
      (course_pipeline (ran_run _ _))⟩
    rw [hempty]
    exact hselect t.config

end Gate
end LintGate
