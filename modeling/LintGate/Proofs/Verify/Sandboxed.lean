import Mathlib.Data.List.Forall2
import LintGate.Proofs.Sandbox.Ways
import LintGate.Proofs.Strategy.Path
import LintGate.Proofs.Verify.Order

/-!
# Starting a container and linting in it

To start a container is one command, with one more that removes it if the start failed.  To lint
in it is one command a script, in any order if there are several jobs.

## Main definitions

* `Sandbox.lintCommand` — the command for a script.
* `LintedOnce` — the scripts that were linted, each by one command.

## Main results

* `Sandbox.ran_create_commands` — a start is one command, with a removal if it failed.
* `LintRun.Course.linted_once` — **a course lints each script by one command at most.**
-/

namespace LintGate

open Program

variable {σ : Type} {answer : (r : Request) → σ → r.Answer × σ} {registry : σ → Registry}
  {s s' : σ} {asked : List Request}

/-! ### Single commands -/

/-- The command that lints a script in a container. -/
def Sandbox.lintCommand (box : Sandbox) (args : List String) (x : ScriptPath) : Command :=
  ⟨box.container.runtime, box.execArgs args x.text, some box.root⟩

@[simp] theorem commands_nil : commands answer s [] = [] := rfl

@[simp] theorem commands_run (c : Command) :
    commands answer s (.run c :: asked) =
      (c, (answer (.run c) s).1) :: commands answer (answer (.run c) s).2 asked := rfl

@[simp] theorem commands_registry (op : Registry.Op) :
    commands answer s (.registry op :: asked) =
      commands answer (answer (.registry op) s).2 asked := rfl

@[simp] theorem commands_token :
    commands answer s (.token :: asked) = commands answer (answer .token s).2 asked := rfl

/-- Every command was asked for. -/
theorem run_mem_of_mem_commands {e : Command × Except OsFault Output}
    (h : e ∈ commands answer s asked) : .run e.1 ∈ asked := by
  obtain ⟨x, hx, he⟩ := List.mem_filterMap.mp h
  have hmem := List.mem_map_of_mem (f := Exchange.request) hx
  rw [map_request_exchanges] at hmem
  obtain ⟨r, a⟩ := x
  cases r with
  | run c =>
    cases he
    exact hmem
  | _ => cases he

/-! ### The start of a container -/

namespace Sandbox

variable {c : SandboxConfig} {t : ToolConfig} {root : String} {x : Except Fault Sandbox}

/-- A way through a start: what follows tells whether the runtime said that it went well. -/
theorem path_create {es : List Exchange} (h : Path (create c t root).run es x) :
    ∃ token a e more, let k : Container := ⟨"shellcheck-gate-" ++ token, c.runtime⟩
      es = ⟨.token, token⟩ :: ⟨.registry (.create k), ()⟩ :: ⟨.registry (.enlist k), ()⟩ ::
        ⟨.run (startCommand t.image root k), a⟩ :: e :: more ∧
      e.request = .registry (if ranWell a = true then .markStarted k else .release k) := by
  obtain ⟨token, h⟩ := creates_of_path h
  cases h with
  | started hstart =>
    cases hstart with
    | inTime a ha => exact ⟨token, a, _, _, rfl, by rw [if_pos ha]; rfl⟩
  | failed hstart hdrop =>
    cases hstart with
    | failed a reason ha =>
      have hno : ¬ ranWell a = true := Bool.eq_false_iff.mp ha
      cases hdrop with
      | shared => exact ⟨token, a, _, _, rfl, by rw [if_neg hno]; rfl⟩
      | spent => exact ⟨token, a, _, _, rfl, by rw [if_neg hno]; rfl⟩
      | removed y => exact ⟨token, a, _, _, rfl, by rw [if_neg hno]; rfl⟩
    | late a y reason ha => exact ⟨token, a, _, _, rfl, by rw [if_pos ha]; rfl⟩

/-- **A start is one command**, and one more to remove the container if it failed. -/
theorem ran_create_commands (hk : KeepsRegistry answer registry) (hs : registry s = {})
    (h : Ran answer (create c t root).run s asked x s') :
    ∃ (k : Container) (start : Except OsFault Output), k.runtime = c.runtime ∧
      ((ranWell start = true ∧ x = .ok ⟨k, t.name, root⟩ ∧
          asked = opening t.image root k ++ [.registry (.markStarted k)] ∧
          commands answer s asked = [(startCommand t.image root k, start)]) ∨
        ranWell start = false ∧ (∃ f, x = .error f) ∧
          asked = opening t.image root k ++ k.removal ∧ ∃ removal, commands answer s asked =
            [(startCommand t.image root k, start), (k.removeCommand, removal)]) := by
  obtain ⟨token, start, e, more, hes, he⟩ := path_create h.path
  have hrequests := map_request_exchanges answer s asked
  rw [hes] at hrequests
  have hcommands : commands answer s asked =
      (startCommand t.image root ⟨"shellcheck-gate-" ++ token, c.runtime⟩, start) ::
        (e :: more).filterMap Exchange.command? := by
    rw [commands, hes]
    rfl
  obtain ⟨k, hruntime, ⟨box, rfl, hbox, hasked, -⟩ | ⟨f, hx, hasked⟩⟩ := ran_create hk hs h
  · obtain ⟨_, rfl⟩ := eq_of_ran_create h
    obtain rfl := hbox
    rw [hasked, opening] at hrequests
    simp only [List.map_cons, List.cons_append, List.nil_append, List.cons.injEq,
      Request.registry.injEq, Registry.Op.create.injEq, List.map_eq_nil_iff] at hrequests
    obtain ⟨-, rfl, -, -, hmark, rfl⟩ := hrequests
    have hwell : ranWell start = true := by
      rw [hmark] at he
      by_contra hill
      rw [if_neg hill] at he
      cases he
    refine ⟨_, start, rfl, Or.inl ⟨hwell, rfl, hasked, ?_⟩⟩
    rw [hcommands]
    obtain ⟨r, a⟩ := e
    cases hmark
    rfl
  · rw [hasked, opening, Container.removal] at hrequests
    simp only [List.map_cons, List.cons_append, List.nil_append, List.cons.injEq,
      Request.registry.injEq, Registry.Op.create.injEq] at hrequests
    obtain ⟨-, rfl, -, -, hrelease, hmore⟩ := hrequests
    have hill : ranWell start = false := by
      rw [hrelease] at he
      by_contra hwell
      rw [Bool.not_eq_false] at hwell
      rw [if_pos hwell] at he
      cases he
    refine ⟨_, start, rfl, Or.inr ⟨hill, ⟨f, hx⟩, hasked, ?_⟩⟩
    obtain ⟨e₁, _, rfl, hclaim, hlast⟩ := List.map_eq_cons_iff.mp hmore
    obtain ⟨e₂, _, rfl, hrun, hnil⟩ := List.map_eq_cons_iff.mp hlast
    obtain rfl := List.map_eq_nil_iff.mp hnil
    obtain ⟨r, a⟩ := e
    obtain ⟨r₁, a₁⟩ := e₁
    obtain ⟨r₂, removal⟩ := e₂
    cases hrelease
    cases hclaim
    cases hrun
    exact ⟨removal, hcommands⟩

end Sandbox

/-! ### Linting in a container -/

/-- A permutation of images is the image of a permutation. -/
theorem exists_map_of_perm {α β : Type} {f : α → β} {l : List β} {as : List α}
    (h : l.Perm (as.map f)) : ∃ bs : List α, bs.Perm as ∧ l = bs.map f := by
  have hpoints : List.Forall₂ (fun b a => b = f a) (as.map f) as :=
    List.forall₂_map_left_iff.mpr (List.forall₂_same.mpr fun _ _ => rfl)
  obtain ⟨bs, hbs, hperm⟩ := List.perm_comp_forall₂ h hpoints
  refine ⟨bs, hperm, ?_⟩
  rw [← List.forall₂_eq_eq_eq, List.forall₂_map_right_iff]
  exact hbs

theorem Finding.InTurn.cases {ss : List ScriptPath} {ds : List Finding}
    (h : Finding.InTurn ss ds) :
    (∀ d ∈ ds, d.result.isOk = true) ∧ ds.map Finding.script = ss ∨
      ∃ before d after, ds = before ++ [d] ∧ ss = before.map Finding.script ++ d.script :: after ∧
        (∀ b ∈ before, b.result.isOk = true) ∧ d.result.isOk = false := by
  induction h with
  | nil => exact Or.inl ⟨by simp, rfl⟩
  | @fault x ss f past => exact Or.inr ⟨[], ⟨x, .error f, past⟩, ss, rfl, rfl, by simp, rfl⟩
  | @cons x ss o past ds _ ih =>
    rcases ih with ⟨hok, rfl⟩ | ⟨before, d, after, rfl, rfl, hok, hfault⟩
    · exact Or.inl ⟨List.forall_mem_cons.mpr ⟨rfl, hok⟩, rfl⟩
    · exact Or.inr ⟨⟨x, .ok o, past⟩ :: before, d, after, rfl, rfl,
        List.forall_mem_cons.mpr ⟨rfl, hok⟩, hfault⟩

/-- Scripts that were linted, each by one command, with what came of it.  No script is linted more
often than it is listed, and all are if no command errs.  With one job they are linted in the
order of the list, up to the first command that errs. -/
structure LintedOnce (jobs : Nat) (ss : List ScriptPath)
    (linted : List (ScriptPath × Except OsFault Output)) : Prop where
  scripts : (linted.map Prod.fst).Subperm ss
  complete : (∀ e ∈ linted, e.2.isOk = true) → (linted.map Prod.fst).Perm ss
  inTurn : jobs ≤ 1 → (∀ e ∈ linted, e.2.isOk = true) ∧ linted.map Prod.fst = ss ∨
    ∃ before e after, linted = before ++ [e] ∧ ss = before.map Prod.fst ++ e.1 :: after ∧
      (∀ b ∈ before, b.2.isOk = true) ∧ e.2.isOk = false

namespace LintedOnce

variable {jobs : Nat} {ss : List ScriptPath}
  {linted linted' : List (ScriptPath × Except OsFault Output)}

/-- With several jobs the order of the commands is left open. -/
theorem perm (h : LintedOnce jobs ss linted) (hjobs : 1 < jobs) (hperm : linted'.Perm linted) :
    LintedOnce jobs ss linted' where
  scripts := (hperm.map Prod.fst).subperm.trans h.scripts
  complete hok := (hperm.map Prod.fst).trans (h.complete fun e he => hok e (hperm.mem_iff.mpr he))
  inTurn hle := absurd hjobs (Nat.not_lt_of_le hle)

/-- What was found of the scripts, with what came of each command. -/
theorem of_findings {lint : ScriptPath → Program (Except Fault LintOutcome)} {es : List Exchange}
    {r : Except Fault Outcomes} {ds : List Finding} (h : Findings jobs lint ss es r ds)
    {entry : Finding → ScriptPath × Except OsFault Output}
    (hscript : ∀ d ∈ ds, (entry d).1 = d.script)
    (hok : ∀ d ∈ ds, (entry d).2.isOk = d.result.isOk) : LintedOnce jobs ss (ds.map entry) := by
  have hscripts : (ds.map entry).map Prod.fst = ds.map Finding.script := by
    rw [List.map_map]
    exact List.map_congr_left hscript
  have hall : (∀ e ∈ ds.map entry, e.2.isOk = true) → ∀ d ∈ ds, d.result.isOk = true :=
    fun he d hd => (hok d hd).symm.trans (he _ (List.mem_map_of_mem hd))
  refine ⟨hscripts ▸ h.scripts, fun he => hscripts ▸ h.complete (hall he), fun hle => ?_⟩
  rcases (h.inTurn hle).1.cases with ⟨hends, hlist⟩ | ⟨before, d, after, rfl, hlist, hends, hfault⟩
  · refine Or.inl ⟨fun e he => ?_, hscripts.trans hlist⟩
    obtain ⟨d, hd, rfl⟩ := List.mem_map.mp he
    exact (hok d hd).trans (hends d hd)
  · have hlast : d ∈ before ++ [d] := List.mem_append_right before (List.mem_singleton_self d)
    refine Or.inr ⟨before.map entry, entry d, after, List.map_append, ?_, fun e he => ?_, ?_⟩
    · rw [hlist, hscript d hlast, List.map_map]
      congr 1
      exact (List.map_congr_left fun b hb => hscript b (List.mem_append_left [d] hb)).symm
    · obtain ⟨b, hb, rfl⟩ := List.mem_map.mp he
      exact (hok b (List.mem_append_left [d] hb)).trans (hends b hb)
    · exact (hok d hlast).trans hfault

end LintedOnce

/-- While nobody claims its removal, a container is never found gone. -/
theorem LintRun.Course.not_findsGone (hk : KeepsRegistry answer registry) {box : Sandbox}
    {args : List String} {jobs : Nat} {ss : List ScriptPath} {r : Except Fault Outcomes}
    (hheld : (registry s).Holds box.container .running)
    (h : LintRun.Course answer jobs (fun x => ((Strategy.sandbox box args).lint x).run) ss s asked
      r s') : ∀ e ∈ exchanges answer s asked, ¬ e.FindsGone := by
  have hstep : ∀ r s, (∃ x, (Strategy.sandbox box args).Lints x r) →
      (registry s).Holds box.container .running →
      (registry (answer r s).2).Holds box.container .running ∧
        ¬ Exchange.FindsGone ⟨r, (answer r s).1⟩ := by
    rintro r s ⟨x, hx⟩ hs
    refine ⟨?_, ?_⟩
    · rwa [hk.registry_answer hx.discreet.1]
    rintro ⟨k, hgone⟩
    rcases hx with rfl | ⟨k', hk', rfl⟩
    · cases congrArg Exchange.request hgone
    · cases hk'
      have hanswer : (answer (.registry (.isRemoved box.container)) s).1 = false := by
        rw [hk.answer_eq]
        show ((registry s).cell? box.container).any _ = false
        rw [hs]
        rfl
      rw [hanswer] at hgone
      cases hgone
  exact (forall_exchanges (¬ ·.FindsGone) hstep hheld (Strategy.lints_of_course h)).2

/-- **A course lints each script by one command at most.** -/
theorem LintRun.Course.linted_once (hk : KeepsRegistry answer registry) {box : Sandbox}
    {args : List String} {jobs : Nat} {ss : List ScriptPath} {r : Except Fault Outcomes}
    (hheld : (registry s).Holds box.container .running)
    (h : LintRun.Course answer jobs (fun x => ((Strategy.sandbox box args).lint x).run) ss s asked
      r s') :
    ∃ linted, commands answer s asked = linted.map (fun e => (box.lintCommand args e.1, e.2)) ∧
      LintedOnce jobs ss linted := by
  obtain ⟨ds, hds⟩ := h.findings
  have hthere := h.not_findsGone hk hheld
  have hone : ∀ d ∈ ds, ∃ a, d.past.filterMap Exchange.command? =
      [(box.lintCommand args d.script, a)] ∧ d.result = Strategy.outcome d.script a := by
    refine fun d hd => Strategy.path_lint (hds.paths d hd) fun e he => hthere e ?_
    exact hds.exchanged.mem_iff.mpr (List.mem_flatMap.mpr ⟨d, hd, he⟩)
  have : Nonempty (Except OsFault Output) := ⟨.error .missing⟩
  choose! came hcame hresult using hone
  let entry := fun d : Finding => (d.script, came d)
  let command := fun e : ScriptPath × Except OsFault Output => (box.lintCommand args e.1, e.2)
  have hcommands : (ds.flatMap Finding.past).filterMap Exchange.command? =
      (ds.map entry).map command :=
    calc (ds.flatMap Finding.past).filterMap Exchange.command?
        = ds.flatMap fun d => d.past.filterMap Exchange.command? := List.filterMap_flatMap ..
      _ = ds.flatMap fun d => [command (entry d)] := List.flatMap_congr hcame
      _ = ds.map (command ∘ entry) := List.map_eq_flatMap.symm
      _ = (ds.map entry).map command := List.map_map.symm
  have hok : ∀ d ∈ ds, (entry d).2.isOk = d.result.isOk := fun d hd => by
    rw [hresult d hd, Strategy.isOk_outcome]
  have hfound : LintedOnce jobs ss (ds.map entry) := .of_findings hds (fun _ _ => rfl) hok
  rcases Nat.lt_or_ge 1 jobs with hjobs | hjobs
  · have hperm : (commands answer s asked).Perm ((ds.map entry).map command) :=
      hcommands ▸ hds.exchanged.filterMap Exchange.command?
    obtain ⟨linted, hlinted, hsame⟩ := exists_map_of_perm hperm
    exact ⟨linted, hsame, hfound.perm hjobs hlinted⟩
  · refine ⟨ds.map entry, ?_, hfound⟩
    rw [commands, (hds.inTurn hjobs).2.1, hcommands]

end LintGate
