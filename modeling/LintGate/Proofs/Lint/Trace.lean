import LintGate.Proofs.Lint.Run
import LintGate.Proofs.Program.Trace

/-!
# Linting by programs

A linter may be a program, one for each script.  Then linting many scripts asks what these
programs ask, and several jobs have a result of each of them.

## Main results

* `LintRun.asks_lint` — what is asked to lint many scripts.
* `LintRun.map_fst_of_ran_all` — several jobs have a result of each script.
-/

namespace LintGate

open Program

variable {σ : Type} {answer : (r : Request) → σ → r.Answer × σ} {s s' : σ}
  {asked : List Request} {allowed : Request → Prop}
  {lint : ScriptPath → Program (Except Fault LintOutcome)} {ss : List ScriptPath}

namespace LintRun

theorem asks_inTurn (h : ∀ x ∈ ss, (lint x).Asks allowed) : (inTurn lint ss).Asks allowed := by
  induction ss with
  | nil => trivial
  | cons x ss ih =>
    refine Asks.bind (h x List.mem_cons_self) fun y => ?_
    cases y with
    | error f => trivial
    | ok o => exact Asks.bind (ih fun x' hx => h x' (List.mem_cons_of_mem x hx)) fun _ => trivial

theorem asks_all (h : ∀ x ∈ ss, (lint x).Asks allowed) : (all lint ss).Asks allowed := by
  induction ss with
  | nil => trivial
  | cons x ss ih =>
    refine Asks.bind (h x List.mem_cons_self) fun y => ?_
    exact Asks.bind (ih fun x' hx => h x' (List.mem_cons_of_mem x hx)) fun _ => trivial

theorem lint_eq_bind (jobs : Nat) :
    LintRun.lint jobs lint ss =
      (if jobs ≤ 1 then inTurn lint ss else all lint ss).bind fun rs => .done rs.collect := by
  unfold LintRun.lint
  split <;> rfl

theorem asks_lint (jobs : Nat) (h : ∀ x ∈ ss, (lint x).Asks allowed) :
    (LintRun.lint jobs lint ss).Asks allowed := by
  have hresults : (if jobs ≤ 1 then inTurn lint ss else all lint ss).Asks allowed := by
    split
    · exact asks_inTurn h
    · exact asks_all h
  rw [lint_eq_bind]
  exact hresults.bind fun _ => trivial

/-- Several jobs have a result of each script. -/
theorem map_fst_of_ran_all {rs : Results} (h : Ran answer (all lint ss) s asked rs s') :
    rs.map Prod.fst = ss := by
  induction ss generalizing s asked rs s' with
  | nil =>
    obtain ⟨-, rfl, -⟩ := ran_done_iff.mp h
    rfl
  | cons x ss ih =>
    obtain ⟨first, y, s₁, rest, hx, hrest, rfl⟩ := ran_bind_iff.mp h
    obtain ⟨more, rs', s₂, last, hmore, hlast, rfl⟩ := ran_bind_iff.mp hrest
    obtain ⟨-, rfl, -⟩ := ran_done_iff.mp hlast
    rw [List.map_cons, ih hmore]

end LintRun

end LintGate
