import LintGate.Proofs.Report.Writing
import LintGate.Proofs.Strategy.Path
import LintGate.Proofs.Verify.Tool

/-!
# Runs with scripts in any order

A run that verifies a repository loads what it is asked to verify, finds the scripts, provides the
tool, lints, gives the tool back and reports.  With several jobs the scripts are linted side by
side, and all else is done by one program.  So a run is a program that prepares, a course of
linting, and programs that give the tool back and report.

## Main definitions

* `Verify.load` — the stage that comes before any command.
* `Verify.Prepared`, `Verify.prepare` — the stages before linting, and what they provide.
* `Verify.Course`, `Gate.Course` — what a run, and its process, can ask and come to.

## Main results

* `Verify.run_eq` — a run is its stages, one after another.
* `Verify.course_run`, `Gate.course_pipeline` — the run of the program is one of the courses.
* `Gate.asks_conclude` — the end of a process only prints.
-/

namespace LintGate

open Program

variable {σ : Type} {answer : (r : Request) → σ → r.Answer × σ} {s s' : σ} {asked : List Request}

namespace Verify

/-! ### Stages -/

/-- The stage before any command: the root, the configuration and the allow-list. -/
def load (u : Surroundings) (o : VerifyOptions) : Action (String × Config × AllowList) := do
  let root ← resolveRoot o.path
  let c ← loadConfig u o.config root
  let allowed ← loadAllowList (Path.join root c.discovery.allowList)
  return (root, c, allowed)

/-- What is left of a run after linting. -/
def afterLinting (o : VerifyOptions) (c : Config) (allowed : AllowList)
    (scripts : List ScriptPath) (outcomes : Outcomes) : Action Verdict := do
  let report := Report.ofOutcomes scripts allowed outcomes c.discovery.allowList
  (report.render o.format false).write
  return report.verdict

/-- What is left of a run after the tool was provided. -/
def afterProviding (o : VerifyOptions) (c : Config) (allowed : AllowList)
    (scripts : List ScriptPath) (strategy : Strategy) : Action Verdict :=
  Action.always (strategy.lintAll o.jobs scripts) strategy.release >>=
    afterLinting o c allowed scripts

/-- What is left of a run after the scripts were found. -/
def afterFinding (u : Surroundings) (o : VerifyOptions) (root : String) (c : Config)
    (allowed : AllowList) (scripts : List ScriptPath) : Action Verdict :=
  Strategy.provide (Detect.probe u) (.ofSurroundings u) c root >>=
    afterProviding o c allowed scripts

/-- What is left of a run after loading. -/
def afterLoading (u : Surroundings) (o : VerifyOptions) :
    String × Config × AllowList → Action Verdict
  | (root, c, allowed) =>
    Git.findScripts root c.discovery >>= afterFinding u o root c allowed

/-- A run is its stages, one after another. -/
theorem run_eq (u : Surroundings) (o : VerifyOptions) :
    run u o = load u o >>= afterLoading u o := by
  simp only [run, examine, lintScripts, load, afterLoading, LawfulMonad.bind_assoc, pure_bind]
  rfl

theorem asks_load (u : Surroundings) (o : VerifyOptions) :
    (load u o).run.Asks Request.Reads := by
  refine Action.asks_bind (Action.asks_trial (asks_send trivial) _) fun root => ?_
  refine Action.asks_bind (asks_loadConfig u o.config root) fun c => ?_
  exact Action.asks_bind (asks_loadAllowList _) fun _ => Action.asks_pure _

theorem asks_print (stream : Stream) (text : String) :
    (Program.print stream text).Asks Request.Prints := by
  unfold Program.print
  split
  · exact asks_done _
  · exact asks_send trivial

/-- A report is printed, and nothing else is asked. -/
theorem asks_write (streams : Streams) : streams.write.run.Asks Request.Prints :=
  Action.asks_bind (Action.asks_trial (asks_print _ _) _) fun _ =>
    Action.asks_trial (asks_print _ _) _

/-! ### Courses -/

/-- What the stages before linting provide. -/
structure Prepared where
  root : String
  config : Config
  allowed : AllowList
  scripts : List ScriptPath
  strategy : Strategy

/-- The stages before linting. -/
def prepare (u : Surroundings) (o : VerifyOptions) : Action Prepared :=
  load u o >>= fun l => Git.findScripts l.1 l.2.1.discovery >>= fun scripts =>
    Strategy.provide (Detect.probe u) (.ofSurroundings u) l.2.1 l.1 >>= fun strategy =>
      pure ⟨l.1, l.2.1, l.2.2, scripts, strategy⟩

/-- What is left of a run after the tool was given back. -/
def finish (o : VerifyOptions) (p : Prepared) : Except Fault Outcomes → Action Verdict
  | .ok outcomes => afterLinting o p.config p.allowed p.scripts outcomes
  | .error f => throw f

/-- What a run can ask and come to: it is stopped before linting, or it lints, gives the tool
back and reports. -/
inductive Course (answer : (r : Request) → σ → r.Answer × σ) (u : Surroundings)
    (o : VerifyOptions) (s : σ) : List Request → Except Fault Verdict → σ → Prop
  | stopped {asked : List Request} {f : Fault} {s' : σ}
      (hprepare : Ran answer (prepare u o).run s asked (.error f) s') :
      Course answer u o s asked (.error f) s'
  | linted {preparing linting releasing finishing : List Request} {p : Prepared}
      {r : Except Fault Outcomes} {x : Except Fault Verdict} {s₁ s₂ s₃ s' : σ}
      (hprepare : Ran answer (prepare u o).run s preparing (.ok p) s₁)
      (hlint : LintRun.Course answer o.jobs (fun x => (p.strategy.lint x).run) p.scripts s₁ linting
        r s₂)
      (hrelease : Ran answer p.strategy.release s₂ releasing () s₃)
      (hfinish : Ran answer (finish o p r).run s₃ finishing x s') :
      Course answer u o s (preparing ++ (linting ++ (releasing ++ finishing))) x s'

theorem run_eq_prepare (u : Surroundings) (o : VerifyOptions) :
    run u o = prepare u o >>= fun p =>
      Action.always (p.strategy.lintAll o.jobs p.scripts) p.strategy.release >>=
        afterLinting o p.config p.allowed p.scripts := by
  rw [run_eq]
  simp only [prepare, LawfulMonad.bind_assoc, pure_bind]
  rfl

/-- A run that lints by one of the courses goes through one of the courses. -/
theorem course_of_ran {u : Surroundings} {o : VerifyOptions} {x : Except Fault Verdict}
    {lints : Prepared → Program (Except Fault Outcomes)}
    (hlints : ∀ {p s asked r s'}, Ran answer (lints p) s asked r s' →
      LintRun.Course answer o.jobs (fun x => (p.strategy.lint x).run) p.scripts s asked r s')
    (h : Ran answer (prepare u o >>= fun p =>
      Action.always (ExceptT.mk (lints p)) p.strategy.release >>=
        afterLinting o p.config p.allowed p.scripts).run s asked x s') :
    Course answer u o s asked x s' := by
  rcases Action.ran_bind_iff.mp h with
    ⟨f, hprepare, rfl⟩ | ⟨preparing, p, s₁, _, hprepare, hrest, rfl⟩
  · exact .stopped hprepare
  -- the tool is given back on both ways, but after a fault nothing is left to report
  rcases Action.ran_bind_iff.mp hrest with ⟨f, halways, rfl⟩ |
    ⟨first, outcomes, s₃, finishing, halways, hfinish, rfl⟩
  · obtain ⟨linting, s₂, releasing, hlint, hrelease, rfl⟩ := Action.ran_always_iff.mp halways
    have hfinish : Ran answer (finish o p (.error f)).run s' [] (.error f) s' :=
      Action.ran_throw_iff.mpr ⟨rfl, rfl, rfl⟩
    have hcourse := Course.linted hprepare (hlints hlint) hrelease hfinish
    rwa [List.append_nil] at hcourse
  · obtain ⟨linting, s₂, releasing, hlint, hrelease, rfl⟩ := Action.ran_always_iff.mp halways
    rw [List.append_assoc]
    exact .linted hprepare (hlints hlint) hrelease hfinish

/-- **The run of the program is one of the courses.** -/
theorem course_run {u : Surroundings} {o : VerifyOptions} {x : Except Fault Verdict}
    (h : Ran answer (run u o).run s asked x s') : Course answer u o s asked x s' := by
  rw [run_eq_prepare] at h
  exact course_of_ran LintRun.course_lint h

theorem asks_finish (o : VerifyOptions) (p : Prepared) (r : Except Fault Outcomes) :
    (finish o p r).run.Asks Request.Prints := by
  cases r with
  | ok outcomes => exact Action.asks_bind (asks_write _) fun _ => Action.asks_pure _
  | error f => exact Action.asks_throw f

end Verify

namespace Gate

/-- What a process that verifies a repository can ask and come to. -/
def Course (answer : (r : Request) → σ → r.Answer × σ) (u : Surroundings) (o : VerifyOptions)
    (s : σ) (asked : List Request) (code : Nat) (s' : σ) : Prop :=
  ∃ first x s₁ rest, Verify.Course answer u o s first x s₁ ∧
    Ran answer (conclude x) s₁ rest code s' ∧ asked = first ++ rest

/-- The run of a process is one of its courses. -/
theorem course_pipeline {u : Surroundings} {o : VerifyOptions} {verbosity : Nat} {quiet : Bool}
    {code : Nat}
    (h : Ran answer (pipeline u ⟨.verify o.path o.jobs o.format, o.config, verbosity, quiet⟩) s
      asked code s') : Course answer u o s asked code s' := by
  obtain ⟨first, x, s₁, rest, hrun, hend, rfl⟩ := ran_bind_iff.mp h
  exact ⟨first, x, s₁, rest, Verify.course_run hrun, hend, rfl⟩

/-- The end of a process only prints. -/
theorem asks_conclude (x : Except Fault Verdict) : (conclude x).Asks Request.Prints := by
  cases x with
  | ok v => exact asks_done _
  | error f => exact (asks_send trivial).bind fun _ => asks_done _

end Gate
end LintGate
