import LintGate.Proofs.Verify.Process
import LintGate.Verify

/-!
# What the status report foretells

A report asks for everything that is known of a machine and makes the choice from the answers
that it shows.  A run that verifies asks only for what it needs, and anew.  So a report always
agrees with itself, and it agrees with the run if the machine answers both alike.

## Main definitions

* `Question`, `Probe.logged` — a probe that writes down what it is asked.
* `StatusReport.gather` — a report by the questions of any probe.
* `StatusReport.Tells` — a report tells a choice, or why there is none.
* `Probe.Gives` — a probe that always gives the same answers on a machine.
* `Strategy.IsOf` — a strategy for a source.

## Main results

* `StatusReport.run_gather_logged` — a report asks each question once.
* `StatusReport.tells_ofFacts` — a report tells the choice from the facts that it shows.
* `Probe.Gives.run_select` — the choice by answers that stay the same.
* `ToolStatusTask.report_foretells` — **what a report tells of a run.**
-/

namespace LintGate

open Program

/-! ### Questions -/

/-- The questions of a probe. -/
inductive Question
  | host (name : String)
  | runtime (name : String)
  | platform
  deriving DecidableEq, Repr

section Questions

variable {m : Type → Type} [Monad m]

/-- The probe that writes down each question before it is answered. -/
def Probe.logged (p : Probe m) : Probe (StateT (List Question) m) where
  host name := do
    modify (· ++ [.host name])
    p.host name
  runtimeReachable name := do
    modify (· ++ [.runtime name])
    p.runtimeReachable name
  platform := do
    modify (· ++ [.platform])
    p.platform
  machine := p.machine

/-- The report by the questions of any probe, and the binary that was downloaded before. -/
def StatusReport.gather (p : Probe m) (cached : m (Option String)) (c : Config) :
    m StatusReport := do
  let facts ← p.facts c
  return .ofFacts c facts (← cached)

theorem ToolStatusTask.report_eq_gather (p : Probe Program) (i : Installer) (c : Config) :
    report p i c = StatusReport.gather p (i.cached c.tool) c := rfl

/-- A report asks for the host's executable, for the runtime and for the platform, once each. -/
theorem StatusReport.run_gather_logged [LawfulMonad m] (p : Probe m) (cached : m (Option String))
    (c : Config) (log : List Question) :
    (gather p.logged (StateT.lift cached) c).run log =
      (fun r => (r, log ++ [.host c.tool.name, .runtime c.sandbox.runtime, .platform])) <$>
        gather p cached c := by
  simp [gather, Probe.facts, Probe.logged]

end Questions

/-! ### The choice that is told -/

namespace StatusReport

/-- The facts that a report on a machine shows. -/
def facts (r : StatusReport) (machine : String) : ToolFacts :=
  ⟨r.host, r.runtimeReachable, r.platform, machine⟩

/-- A report tells the source that was chosen, or the fault that there was instead, and not
both. -/
def Tells (r : StatusReport) : Except Fault ToolSource → Prop
  | .ok source => r.selected = some source ∧ r.unavailableReason = none
  | .error fault => r.selected = none ∧ r.unavailableReason = some fault.message

/-- The choice that a report tells is made from the facts that it shows. -/
theorem tells_ofFacts (c : Config) (f : ToolFacts) (cached : Option String) :
    (ofFacts c f cached).Tells (selectSource f c) := by
  cases h : selectSource f c with
  | ok source => simp [Tells, ofFacts, h, Except.toOption]
  | error fault => simp [Tells, ofFacts, h, Except.toOption]

end StatusReport

variable {σ : Type} {answer : (r : Request) → σ → r.Answer × σ} {s s' : σ}
  {asked : List Request}

/-- The run of a report: one question after the other, and then the look at the binary that was
downloaded before.  What is answered is what is reported. -/
theorem ToolStatusTask.ran_report_iff {p : Probe Program} {i : Installer} {c : Config}
    {r : StatusReport} :
    Ran answer (report p i c) s asked r s' ↔
      ∃ first host s₁ second reachable s₂ third platform s₃ last cached,
        Ran answer (p.host c.tool.name) s first host s₁ ∧
        Ran answer (p.runtimeReachable c.sandbox.runtime) s₁ second reachable s₂ ∧
        Ran answer p.platform s₂ third platform s₃ ∧
        Ran answer (i.cached c.tool) s₃ last cached s' ∧
        asked = first ++ (second ++ (third ++ last)) ∧
        r = .ofFacts c ⟨host, reachable, platform, p.machine⟩ cached := by
  have hreport : report p i c = (p.host c.tool.name).bind fun host =>
      (p.runtimeReachable c.sandbox.runtime).bind fun reachable =>
        p.platform.bind fun platform => (i.cached c.tool).bind fun cached =>
          .done (.ofFacts c ⟨host, reachable, platform, p.machine⟩ cached) := by
    simp [report, Probe.facts]
    rfl
  simp only [hreport, ran_bind_iff, ran_done_iff]
  constructor
  · rintro ⟨first, host, s₁, _, hhost, ⟨second, reachable, s₂, _, hreach, ⟨third, platform, s₃, _,
      hplatform, ⟨last, cached, _, _, hcached, ⟨rfl, rfl, rfl⟩, rfl⟩, rfl⟩, rfl⟩, rfl⟩
    exact ⟨first, host, s₁, second, reachable, s₂, third, platform, s₃, last, cached, hhost,
      hreach, hplatform, hcached, by rw [List.append_nil], rfl⟩
  · rintro ⟨first, host, s₁, second, reachable, s₂, third, platform, s₃, last, cached, hhost,
      hreach, hplatform, hcached, rfl, rfl⟩
    exact ⟨first, host, s₁, _, hhost, ⟨second, reachable, s₂, _, hreach, ⟨third, platform, s₃, _,
      hplatform, ⟨last, cached, s', [], hcached, ⟨rfl, rfl, rfl⟩, rfl⟩, rfl⟩, rfl⟩,
      by rw [List.append_nil]⟩

/-! ### Answers that stay the same -/

/-- A probe that gives the same answers for a configuration wherever the machine is. -/
structure Probe.Gives (answer : (r : Request) → σ → r.Answer × σ) (p : Probe Program) (c : Config)
    (f : ToolFacts) : Prop where
  host : ∀ s, ((p.host c.tool.name).run answer s).1 = f.host
  runtimeReachable : ∀ s, ((p.runtimeReachable c.sandbox.runtime).run answer s).1 =
    f.runtimeReachable
  platform : ∀ s, (p.platform.run answer s).1 = f.platform
  machine : p.machine = f.machine

/-- The choice asks for one thing after the other, and goes on only if it has to. -/
theorem Probe.select_eq_bind (p : Probe Program) (c : Config) :
    p.select c = (p.host c.tool.name).bind fun host =>
      if host.version = some c.tool.version then .done (.ok .hostBinary)
      else (p.runtimeReachable c.sandbox.runtime).bind fun reachable =>
        if reachable then .done (.ok .sandbox)
        else p.platform.bind fun platform => .done <|
          match platform with
          | some platform => .ok (.download platform)
          | none => .error (noSource c p.machine) := by
  unfold Probe.select
  refine congrArg (Program.bind _) (funext fun host => ?_)
  split
  · rfl
  · refine congrArg (Program.bind _) (funext fun reachable => ?_)
    split
    · rfl
    · refine congrArg (Program.bind _) (funext fun platform => ?_)
      cases platform <;> rfl

namespace Probe.Gives

variable {p : Probe Program} {c : Config} {f : ToolFacts}

/-- The choice by answers that stay the same is the choice from these answers. -/
theorem run_select (h : p.Gives answer c f) (s : σ) :
    ((p.select c).run answer s).1 = selectSource f c := by
  rw [select_eq_bind, selectSource_eq, run_bind, h.host]
  split
  · rfl
  · rw [run_bind, h.runtimeReachable]
    split
    · rfl
    · rw [run_bind, h.platform, h.machine]
      cases f.platform <;> rfl

/-- The report on answers that stay the same shows them. -/
theorem facts_eq_of_ran (h : p.Gives answer c f) {i : Installer} {r : StatusReport}
    (hr : Ran answer (ToolStatusTask.report p i c) s asked r s') : r.facts p.machine = f := by
  obtain ⟨_, host, s₁, _, reachable, s₂, _, platform, s₃, _, cached, hhost, hreach, hplatform, -, -,
    rfl⟩ := ToolStatusTask.ran_report_iff.mp hr
  have hhost' : host = f.host := (congrArg Prod.fst hhost.run_eq).symm.trans (h.host s)
  have hreach' : reachable = f.runtimeReachable :=
    (congrArg Prod.fst hreach.run_eq).symm.trans (h.runtimeReachable s₁)
  have hplatform' : platform = f.platform :=
    (congrArg Prod.fst hplatform.run_eq).symm.trans (h.platform s₂)
  show (⟨host, reachable, platform, p.machine⟩ : ToolFacts) = f
  rw [hhost', hreach', hplatform', h.machine]

end Probe.Gives

namespace Strategy

/-- Whether a strategy is one for a source. -/
def IsOf : Strategy → ToolSource → Prop
  | .hostBinary _, .hostBinary | .sandbox .., .sandbox | .downloaded _, .download _ => True
  | _, _ => False

/-- What is provided for a source is a strategy for it. -/
theorem isOf_of_ran {i : Installer} {c : Config} {root : String} {source : ToolSource}
    {strategy : Strategy}
    (h : Ran answer (ofSource i c root source).run s asked (.ok strategy) s') :
    strategy.IsOf source := by
  cases source with
  | hostBinary =>
    obtain ⟨-, he, -⟩ := Action.ran_pure_iff.mp h
    cases he
    trivial
  | sandbox =>
    rcases Action.ran_bind_iff.mp h with ⟨f, -, he⟩ | ⟨first, box, s₁, rest, -, hpure, rfl⟩
    · cases he
    · obtain ⟨-, he, -⟩ := Action.ran_pure_iff.mp hpure
      cases he
      trivial
  | download p =>
    rcases Action.ran_bind_iff.mp h with ⟨f, -, he⟩ | ⟨first, executable, s₁, rest, -, hpure, rfl⟩
    · cases he
    · obtain ⟨-, he, -⟩ := Action.ran_pure_iff.mp hpure
      cases he
      trivial

/-- The run of a choice and of what is done for it.  Without a choice nothing is done. -/
theorem ran_provide_iff {p : Probe Program} {i : Installer} {c : Config} {root : String}
    {x : Except Fault Strategy} :
    Ran answer (provide p i c root).run s asked x s' ↔
      (∃ fault, Ran answer (p.select c) s asked (.error fault) s' ∧ x = .error fault) ∨
      ∃ choosing source s₁ building, Ran answer (p.select c) s choosing (.ok source) s₁ ∧
        Ran answer (ofSource i c root source).run s₁ building x s' ∧
        asked = choosing ++ building := Action.ran_bind_iff

end Strategy

/-! ### What a report tells of a run -/

namespace ToolStatusTask

/-- **What a report tells of a run.**  The answers of the probe may change from question to
question.  A report asks each of its questions once, shows the answers, and tells the source that
is chosen from these answers, or the text of the fault if there is none, and not both.  If the
answers stay the same, it tells the choice that the probe itself leads to from anywhere.  Then a
run either provides the source that was reported, by a strategy for that source unless providing
it fails, or it ends with the fault that was reported and does nothing more. -/
theorem report_foretells (p : Probe Program) (i : Installer) (c : Config)
    (answer : (r : Request) → σ → r.Answer × σ) :
    (StatusReport.gather p (i.cached c.tool) c = report p i c ∧ ∀ log,
      (StatusReport.gather p.logged (StateT.lift (i.cached c.tool)) c).run log =
        (fun r => (r, log ++ [.host c.tool.name, .runtime c.sandbox.runtime, .platform])) <$>
          report p i c) ∧
    (∀ s asked r s', Ran answer (report p i c) s asked r s' →
      (∃ first s₁ second s₂ third s₃ last,
        Ran answer (p.host c.tool.name) s first r.host s₁ ∧
        Ran answer (p.runtimeReachable c.sandbox.runtime) s₁ second r.runtimeReachable s₂ ∧
        Ran answer p.platform s₂ third r.platform s₃ ∧
        Ran answer (i.cached c.tool) s₃ last r.cachedDownload s' ∧
        asked = first ++ (second ++ (third ++ last))) ∧
      r.Tells (selectSource (r.facts p.machine) c)) ∧
    ∀ f, p.Gives answer c f → ∀ s asked r s', Ran answer (report p i c) s asked r s' →
      r.facts p.machine = f ∧ (∀ t, r.Tells ((p.select c).run answer t).1) ∧
      ∀ (j : Installer) (root : String) t asked x t',
        Ran answer (Strategy.provide p j c root).run t asked x t' →
        (∃ source, r.selected = some source ∧ ∃ choosing t₁ building,
          Ran answer (p.select c) t choosing (.ok source) t₁ ∧
          Ran answer (Strategy.ofSource j c root source).run t₁ building x t' ∧
          asked = choosing ++ building ∧ ∀ strategy, x = .ok strategy → strategy.IsOf source) ∨
        ∃ fault, r.unavailableReason = some fault.message ∧ x = .error fault ∧
          Ran answer (p.select c) t asked (.error fault) t' := by
  refine ⟨⟨(report_eq_gather p i c).symm, fun log => StatusReport.run_gather_logged p _ c log⟩,
    fun s asked r s' hr => ?_, fun f hf s asked r s' hr => ?_⟩
  · obtain ⟨first, host, s₁, second, reachable, s₂, third, platform, s₃, last, cached, hhost,
      hreach, hplatform, hcached, rfl, rfl⟩ := ran_report_iff.mp hr
    exact ⟨⟨first, s₁, second, s₂, third, s₃, last, hhost, hreach, hplatform, hcached, rfl⟩,
      StatusReport.tells_ofFacts c _ cached⟩
  · have hfacts := hf.facts_eq_of_ran hr
    have htells : ∀ t, r.Tells ((p.select c).run answer t).1 := by
      intro t
      obtain ⟨_, host, s₁, _, reachable, s₂, _, platform, s₃, _, cached, -, -, -, -, -, rfl⟩ :=
        ran_report_iff.mp hr
      rw [hf.run_select t, ← hfacts]
      exact StatusReport.tells_ofFacts c _ cached
    refine ⟨hfacts, htells, fun j root t asked x t' hprovide => ?_⟩
    have ht := htells t
    rcases Strategy.ran_provide_iff.mp hprovide with
      ⟨fault, hselect, rfl⟩ | ⟨choosing, source, t₁, building, hselect, hbuild, rfl⟩
    · rw [hselect.run_eq] at ht
      exact Or.inr ⟨fault, ht.2, rfl, hselect⟩
    · rw [hselect.run_eq] at ht
      refine Or.inl ⟨source, ht.1, choosing, t₁, building, hselect, hbuild, rfl, ?_⟩
      rintro strategy rfl
      exact Strategy.isOf_of_ran hbuild

/-- No executable of the host, and a runtime that is reached: the report tells that a container
is chosen, and the run starts one. -/
theorem report_foretells_sandbox :
    (Detect.probe Gate.bare).Gives Gate.wellBehaved {}
      ⟨.absent, true, some .linuxX86, "linux/x86_64"⟩ ∧
    ∃ asked r g, Ran Gate.wellBehaved (report (Detect.probe Gate.bare) ⟨"/c"⟩ {}) {} asked r g ∧
      r.selected = some .sandbox ∧ r.unavailableReason = none ∧
      ∃ asked strategy g',
        Ran Gate.wellBehaved (Strategy.provide (Detect.probe Gate.bare) ⟨"/c"⟩ {} "/r").run g asked
          (.ok strategy) g' ∧ strategy.IsOf .sandbox := by
  have hgives : (Detect.probe Gate.bare).Gives Gate.wellBehaved {}
      ⟨.absent, true, some .linuxX86, "linux/x86_64"⟩ :=
    ⟨fun g => rfl, fun g => rfl, fun g => rfl, by decide⟩
  obtain ⟨-, hreport, hstable⟩ :=
    report_foretells (Detect.probe Gate.bare) ⟨"/c"⟩ {} Gate.wellBehaved
  have hr := @ran_run _ _ Gate.wellBehaved (report (Detect.probe Gate.bare) ⟨"/c"⟩ {}) {}
  obtain ⟨hfacts, -, hrun⟩ := hstable _ hgives _ _ _ _ hr
  obtain ⟨-, htells⟩ := hreport _ _ _ _ hr
  have hchoice :
      selectSource ⟨.absent, true, some .linuxX86, "linux/x86_64"⟩ {} = .ok .sandbox := by
    decide
  rw [hfacts, hchoice] at htells
  refine ⟨hgives, _, _, _, hr, htells.1, htells.2, ?_⟩
  have hbuilt : ((Strategy.provide (Detect.probe Gate.bare) ⟨"/c"⟩ {} "/r").run.run
      Gate.wellBehaved ((report (Detect.probe Gate.bare) ⟨"/c"⟩ {}).run Gate.wellBehaved {}).2).1 =
        .ok (.sandbox ⟨⟨"shellcheck-gate-1", "docker"⟩, "shellcheck", "/r"⟩
          (lintOptions [1090, 1091, 2230])) := by decide +kernel
  have hprovide := @ran_run _ _ Gate.wellBehaved
    (Strategy.provide (Detect.probe Gate.bare) ⟨"/c"⟩ {} "/r").run
    ((report (Detect.probe Gate.bare) ⟨"/c"⟩ {}).run Gate.wellBehaved {}).2
  rw [hbuilt] at hprovide
  refine ⟨_, _, _, hprovide, ?_⟩
  rcases hrun ⟨"/c"⟩ "/r" _ _ _ _ hprovide with
    ⟨source, hsource, _, _, _, -, -, -, hof⟩ | ⟨fault, -, he, -⟩
  · rw [htells.1, Option.some_inj] at hsource
    exact hsource ▸ hof _ rfl
  · cases he

end ToolStatusTask
end LintGate
