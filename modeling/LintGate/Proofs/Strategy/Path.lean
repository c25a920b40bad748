import LintGate.Proofs.Lint.Shift
import LintGate.Proofs.Verify.Stages

/-!
# How a script is linted

To lint a script is to run one command, wherever the tool comes from.  A container is asked for
first, and if its removal was claimed no command is run.

## Main definitions

* `Strategy.outcome` — the outcome of a script, by what came of its command.
* `Exchange.FindsGone` — a container that was found to be claimed for removal.

## Main results

* `Strategy.path_lint_ok` — an outcome is made from what came of the command of its script.
* `Strategy.path_lint` — **a script is linted by one command**, unless its container is gone.
-/

namespace LintGate

open Program

/-- Whether a container was found to be claimed for removal. -/
def Exchange.FindsGone (e : Exchange) : Prop := ∃ k, e = ⟨.registry (.isRemoved k), true⟩

namespace Strategy

/-- The outcome of a script, by what came of the command that lints it. -/
def outcome (x : ScriptPath) : Except OsFault Output → Except Fault LintOutcome
  | .ok o => .ok (.ofOutput o)
  | .error e => .error (.toolInvocation x.text e.message)

theorem isOk_outcome (x : ScriptPath) (a : Except OsFault Output) :
    (outcome x a).isOk = a.isOk := by
  cases a <;> rfl

variable {strategy : Strategy} {x : ScriptPath} {es : List Exchange}
  {y : Except Fault LintOutcome}

/-- The way from a command to the outcome of a script. -/
theorem path_command {c : Command}
    (h : Path (Action.trial (.send (.run c)) (fun e => .toolInvocation x.text e.message) >>=
      fun o => (pure (.ofOutput o) : Action LintOutcome)).run es y) :
    ∃ a, es = [⟨.run c, a⟩] ∧ y = outcome x a := by
  cases h with
  | ask a hrest =>
    cases a with
    | error e =>
      cases hrest with
      | done => exact ⟨.error e, rfl, rfl⟩
    | ok o =>
      cases hrest with
      | done => exact ⟨.ok o, rfl, rfl⟩

/-- **A script is linted by one command**, unless its container is gone. -/
theorem path_lint (h : Path (strategy.lint x).run es y) (hes : ∀ e ∈ es, ¬ e.FindsGone) :
    ∃ a, es.filterMap Exchange.command? = [(strategy.command x, a)] ∧ y = outcome x a := by
  cases strategy with
  | hostBinary t =>
    obtain ⟨a, rfl, rfl⟩ := path_command h
    exact ⟨a, rfl, rfl⟩
  | downloaded t =>
    obtain ⟨a, rfl, rfl⟩ := path_command h
    exact ⟨a, rfl, rfl⟩
  | sandbox box args =>
    cases h with
    | ask gone hrest =>
      cases gone with
      | true => exact absurd ⟨box.container, rfl⟩ (hes _ List.mem_cons_self)
      | false =>
        obtain ⟨a, rfl, rfl⟩ := path_command hrest
        exact ⟨a, rfl, rfl⟩

variable {σ : Type} {answer : (r : Request) → σ → r.Answer × σ} {s s' : σ} {asked : List Request}

/-- A course of linting asks what is asked to lint scripts. -/
theorem lints_of_course {jobs : Nat} {ss : List ScriptPath} {r : Except Fault Outcomes}
    (h : LintRun.Course answer jobs (fun x => (strategy.lint x).run) ss s asked r s') :
    ∀ r ∈ asked, ∃ x, strategy.Lints x r :=
  h.forall_mem fun x _ => (asks_lint strategy x).mono fun _ hr => ⟨x, hr⟩

end Strategy
end LintGate
