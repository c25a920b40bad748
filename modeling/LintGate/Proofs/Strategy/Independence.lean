import Mathlib
import LintGate.Proofs.Lint.Shift
import LintGate.Proofs.Sandbox.Story
import LintGate.Proofs.Strategy.Path
import LintGate.Proofs.Text.Lines
import LintGate.Proofs.Verify.Process
import LintGate.Proofs.Verify.Tool

/-!
# The verdict does not depend on the source of the tool

The tool may be an executable of the host, one that was downloaded, or one in a container.
Wherever it is, it gets the same arguments in the same directory.  So if it is one and the same
tool, it answers alike, and then so does everything that is built on its answers.

## Main definitions

* `Tool` — what a tool does.
* `IsTool`, `IsToolIn` — executables, and names in a container, that are the tool.
* `Strategy.toolCall?` — the arguments that reach the tool, and the directory.
* `Strategy.Serves` — a strategy by which every script has a fixed answer.

## Main results

* `lintOptions_cases` — the options tell the rules that are disabled.
* `Strategy.Serves.course_iff` — what many scripts come to by such a strategy.
* `Strategy.verdict_independent_of_source` — **the verdict does not depend on the source.**
-/

namespace LintGate

open Program Text

/-- What a tool does: what comes of it for some arguments in a working directory. -/
abbrev Tool := List String → String → Except OsFault Output

variable {σ : Type} {answer : (r : Request) → σ → r.Answer × σ} {registry : σ → Registry}
  {s s' : σ} {asked : List Request}

/-! ### Options -/

/-- The numbers of a text, with commas between them. -/
def numbers (value : String) : List (Option Nat) :=
  (splitOn ',' value.toList).map fun cs => (String.ofList cs).toNat?

/-- Numbers that are joined are read again. -/
theorem numbers_join {disabled : List UInt32} (hne : disabled ≠ []) :
    numbers (join "," (disabled.map fun c => toString c.toNat)) =
      disabled.map fun c => some c.toNat := by
  have hdigits : ∀ cs ∈ disabled.map (fun c => (toString c.toNat).toList), ',' ∉ cs := by
    intro cs hcs hcomma
    obtain ⟨c, -, rfl⟩ := List.mem_map.mp hcs
    rw [Nat.toString_eq_ofList_toDigits, String.toList_ofList] at hcomma
    exact absurd (Nat.isDigit_of_mem_toDigits (by decide) (by decide) hcomma) (by decide)
  have hnonempty : disabled.map (fun c => (toString c.toNat).toList) ≠ [] := by simpa using hne
  have hlist : (join "," (disabled.map fun c => toString c.toNat)).toList =
      joinWith [','] (disabled.map fun c => (toString c.toNat).toList) := by
    rw [join, String.toList_ofList, List.map_map]
    rfl
  rw [numbers, hlist, splitOn_joinWith hnonempty hdigits, List.map_map]
  refine List.map_congr_left fun c _ => ?_
  rw [Function.comp_apply, String.ofList_toList]
  exact Nat.toNat?_repr c.toNat

/-- The options tell the rules that are disabled, if there are any. -/
theorem lintOptions_cases (disabled : List UInt32) :
    ∃ exclude, lintOptions disabled = "--external-sources" :: (exclude ++ ["--color=auto"]) ∧
      (disabled = [] ∧ exclude = [] ∨ disabled ≠ [] ∧ ∃ value, exclude = ["--exclude=" ++ value] ∧
        numbers value = disabled.map fun c => some c.toNat) := by
  cases disabled with
  | nil => exact ⟨[], rfl, Or.inl ⟨rfl, rfl⟩⟩
  | cons c cs =>
    exact ⟨_, rfl, Or.inr ⟨List.cons_ne_nil c cs, _, rfl, numbers_join (List.cons_ne_nil c cs)⟩⟩

/-! ### One tool -/

/-- An executable that is the tool. -/
def IsTool (answer : (r : Request) → σ → r.Answer × σ) (tool : Tool) (executable : String) : Prop :=
  ∀ args dir s, (answer (.run ⟨executable, args, some dir⟩) s).1 = tool args dir

/-- A name that is the tool in a container while the container is up.  The container stays up
until the runtime is asked to remove it. -/
structure IsToolIn (answer : (r : Request) → σ → r.Answer × σ) (tool : Tool) (k : Container)
    (name : String) (up : σ → Prop) : Prop where
  exec : ∀ args dir cwd s, up s →
    (answer (.run ⟨k.runtime, ["exec", "--workdir", dir, k.name, name] ++ args, cwd⟩) s).1 =
      tool args dir
  stays : ∀ r s, up s → (∀ c, r = .run c → c.removalOf? ≠ some k) → up (answer r s).2

namespace Strategy

/-- The arguments that reach the tool by a command, and the directory that it works in. -/
def toolCall? (strategy : Strategy) (c : Command) : Option (List String × String) :=
  match strategy with
  | .hostBinary t | .downloaded t =>
    if c.program = t.executable then c.dir.map fun dir => (c.args, dir) else none
  | .sandbox box _ =>
    match c.args with
    | "exec" :: "--workdir" :: dir :: name :: tool :: args =>
      if c.program = box.container.runtime ∧ name = box.container.name ∧ tool = box.tool then
        some (args, dir)
      else none
    | _ => none

/-- An exchange that fits the fixed answers of scripts, and finds no container gone. -/
def Fits (strategy : Strategy) (fixed : ScriptPath → Except OsFault Output) (e : Exchange) : Prop :=
  ¬ e.FindsGone ∧ ∀ x a, e.command? = some (strategy.command x, a) → a = fixed x

/-- A strategy by which every script has a fixed answer: what is asked to lint it fits the
answers, and leads from good states to good ones. -/
def Serves (answer : (r : Request) → σ → r.Answer × σ) (good : σ → Prop)
    (fixed : ScriptPath → Except OsFault Output) (strategy : Strategy) : Prop :=
  ∀ x r s, strategy.Lints x r → good s →
    good (answer r s).2 ∧ strategy.Fits fixed ⟨r, (answer r s).1⟩

section Serves

variable {good : σ → Prop} {fixed : ScriptPath → Except OsFault Output} {strategy : Strategy}

/-- Each way through the program of a script is the one with its fixed answer. -/
theorem Serves.path (hs : Serves answer good fixed strategy) (hgood : good s)
    (hasked : ∀ r ∈ asked, ∃ x, strategy.Lints x r) {x : ScriptPath} {es : List Exchange}
    {y : Except Fault LintOutcome} (hpath : Path (strategy.lint x).run es y)
    (hsub : es ⊆ exchanges answer s asked) :
    es.filterMap Exchange.command? = [(strategy.command x, fixed x)] ∧ y = outcome x (fixed x) := by
  obtain ⟨-, hshown⟩ := forall_exchanges (strategy.Fits fixed) (fun r s ⟨x, hx⟩ => hs x r s hx)
    hgood hasked
  obtain ⟨a, hcommand, rfl⟩ := path_lint hpath fun e he => (hshown e (hsub he)).1
  have hmem : (strategy.command x, a) ∈ es.filterMap Exchange.command? := by
    rw [hcommand]
    exact List.mem_singleton_self _
  obtain ⟨e, he, hcmd⟩ := List.mem_filterMap.mp hmem
  obtain rfl := (hshown e (hsub he)).2 x a hcmd
  exact ⟨hcommand, rfl⟩

/-- A script is linted by one command, and its outcome is the fixed one. -/
theorem Serves.ran_lint (hs : Serves answer good fixed strategy) (hgood : good s) (x : ScriptPath) :
    ∃ asked s', Ran answer (strategy.lint x).run s asked (outcome x (fixed x)) s' ∧
      commands answer s asked = [(strategy.command x, fixed x)] := by
  have hran : Ran answer (strategy.lint x).run s _ _ _ := ran_run _ s
  have hasked := hran.forall_mem (asks_lint strategy x)
  obtain ⟨hcommand, hy⟩ := hs.path hgood (fun r hr => ⟨x, hasked r hr⟩) hran.path
    (List.Subset.refl _)
  rw [hy] at hran
  exact ⟨_, _, hran, hcommand⟩

/-- What many scripts come to is fixed but for the order. -/
theorem Serves.course_iff (hs : Serves answer good fixed strategy) (hgood : good s) (jobs : Nat)
    (ss : List ScriptPath) (r : Except Fault Outcomes) :
    (∃ asked s', LintRun.Course answer jobs (fun x => (strategy.lint x).run) ss s asked r s') ↔
      LintRun.Ends jobs (fun x => outcome x (fixed x)) ss r := by
  have hends : ∀ {asked r s'},
      LintRun.Course answer jobs (fun x => (strategy.lint x).run) ss s asked r s' →
      LintRun.Ends jobs (fun x => outcome x (fixed x)) ss r := by
    intro asked r s' h
    obtain ⟨ds, hds⟩ := h.findings
    refine hds.ends fun d hd => (hs.path hgood (lints_of_course h) (hds.paths d hd) fun e he => ?_).2
    exact hds.exchanged.mem_iff.mpr (List.mem_flatMap.mpr ⟨d, hd, he⟩)
  have hran : Ran answer (LintRun.lint jobs (fun x => (strategy.lint x).run) ss) s _ _ _ :=
    ran_run _ s
  have hown := LintRun.course_lint hran
  constructor
  · rintro ⟨asked, s', h⟩
    exact hends h
  · intro h
    -- the run of the program ends with a table if there is one, and with the first fault if
    -- there is one job
    cases hr : r with
    | ok t =>
      rw [hr] at h
      have hsame := h.answers.eq_of_ok (hends hown).answers
      rw [hsame] at hown
      exact ⟨_, _, hown⟩
    | error fault =>
      rw [hr] at h
      rcases Nat.lt_or_ge 1 jobs with hjobs | hjobs
      · obtain ⟨x, hx, hfault⟩ := h.answers
        obtain ⟨asked, s', hran, -⟩ := hs.ran_lint hgood x
        dsimp only at hfault
        rw [hfault] at hran
        exact ⟨asked, s', LintRun.course_of_fault hjobs hx hran⟩
      · have hsame := (hends hown).eq_of_le hjobs
        rw [← h.eq_of_le hjobs] at hsame
        rw [hsame] at hown
        exact ⟨_, _, hown⟩

/-- What the program itself comes to for many scripts. -/
theorem Serves.lint_eq (hs : Serves answer good fixed strategy) (hgood : good s) {jobs : Nat}
    {ss : List ScriptPath} {r : Except Fault Outcomes}
    (h : Ran answer (strategy.lintAll jobs ss).run s asked r s') :
    r = LintRun.lint (m := Id) jobs (fun x => outcome x (fixed x)) ss := by
  have hcourse := LintRun.course_lint h
  rcases Nat.lt_or_ge 1 jobs with hjobs | hjobs
  · have hasked := lints_of_course hcourse
    have hlint : Ran answer (LintRun.lint jobs (fun x => (strategy.lint x).run) ss) s asked r s' := h
    rw [LintRun.lint_eq_bind, if_neg (Nat.not_le_of_lt hjobs)] at hlint
    obtain ⟨first, rs, s₁, rest, hall, hcollect, rfl⟩ := ran_bind_iff.mp hlint
    obtain ⟨rfl, rfl, rfl⟩ := ran_done_iff.mp hcollect
    rw [List.append_nil] at hasked
    obtain ⟨found, hresults, hrun⟩ :=
      Shift.run_oneByOne [] (Nat.lt_of_succ_lt hjobs) (List.Perm.refl ss) hall
    obtain ⟨hsound, -⟩ := Shift.sound_start.run hrun
    have hfixed : ∀ q ∈ rs, q.2 = outcome q.1 (fixed q.1) := by
      intro q hq
      have hfound : Finding.results found = rs := hresults
      rw [← hfound] at hq
      obtain ⟨d, hd, rfl⟩ := List.mem_map.mp hq
      refine (hs.path hgood hasked (hsound.found d hd) fun e he => ?_).2
      exact hsound.exchanged.mem_iff.mpr (List.mem_flatMap.mpr ⟨d, hd, he⟩)
    have hlist : rs = ss.map fun x => (x, outcome x (fixed x)) := by
      rw [← LintRun.map_fst_of_ran_all hall, List.map_map]
      exact (List.map_id rs).symm.trans
        (List.map_congr_left fun q hq => Prod.ext rfl (hfixed q hq))
    rw [LintRun.lint_of_lt hjobs, hlist]
  · exact ((hs.course_iff hgood jobs ss r).mp ⟨_, _, hcourse⟩).eq_of_le hjobs

end Serves

/-! ### The strategies for one tool -/

/-- An executable that is the tool serves by what the tool does. -/
theorem serves_local {strategy : Strategy} {t : LocalTool} {tool : Tool}
    (hstrategy : strategy = .hostBinary t ∨ strategy = .downloaded t)
    (ht : IsTool answer tool t.executable) :
    Serves answer (fun _ => True) (fun x => tool (t.args ++ [x.text]) t.root) strategy := by
  have hcommand : ∀ x, strategy.command x = ⟨t.executable, t.args ++ [x.text], some t.root⟩ := by
    rcases hstrategy with rfl | rfl <;> exact fun x => rfl
  have hnone : strategy.container? = none := by rcases hstrategy with rfl | rfl <;> rfl
  rintro x r s (rfl | ⟨k, hk, -⟩) -
  · refine ⟨trivial, fun ⟨k, hk⟩ => ?_, fun x' a ha => ?_⟩
    · cases congrArg Exchange.request hk
    · obtain ⟨hsame, rfl⟩ := Prod.mk.inj (Option.some.inj ha)
      rw [hsame, hcommand]
      exact ht _ _ _
  · rw [hnone] at hk
    cases hk

/-- A container that is up, and whose removal was not claimed. -/
def Usable (registry : σ → Registry) (up : σ → Prop) (k : Container) (s : σ) : Prop :=
  up s ∧ ((registry s).apply (.isRemoved k)).1 = false

/-- A name that is the tool in a container serves by what the tool does. -/
theorem serves_sandbox (hk : KeepsRegistry answer registry) {box : Sandbox} {args : List String}
    {tool : Tool} {up : σ → Prop} (ht : IsToolIn answer tool box.container box.tool up) :
    Serves answer (Usable registry up box.container)
      (fun x => tool (args ++ [x.text]) box.root) (.sandbox box args) := by
  rintro x r s hr ⟨hup, hthere⟩
  have hrunning : ∀ x, (answer (.run (command (.sandbox box args) x)) s).1 =
      tool (args ++ [x.text]) box.root := fun x => by
    have hcall : box.execArgs args x.text = ["exec", "--workdir", box.root, box.container.name,
        box.tool] ++ (args ++ [x.text]) := List.append_assoc _ _ _
    rw [command, hcall]
    exact ht.exec _ _ _ _ hup
  -- neither request removes the container or changes the registry
  have hkept : up (answer r s).2 ∧ registry (answer r s).2 = registry s := by
    refine ⟨ht.stays r s hup fun c hc => ?_, hk.registry_answer hr.discreet.1 s⟩
    rcases hr with rfl | ⟨k, -, rfl⟩
    · cases hc
      simp [Command.removalOf?, command, Sandbox.execArgs]
    · cases hc
  refine ⟨⟨hkept.1, by rw [hkept.2, hthere]⟩, ?_, fun x' a ha => ?_⟩
  · rintro ⟨k, hgone⟩
    rcases hr with rfl | ⟨k', hk', rfl⟩
    · cases congrArg Exchange.request hgone
    · cases hk'
      have hanswer := hk.answer_eq (.isRemoved box.container) s
      rw [hthere] at hanswer
      rw [hanswer] at hgone
      cases hgone
  · rcases hr with rfl | ⟨k', -, rfl⟩
    · obtain ⟨hsame, rfl⟩ := Prod.mk.inj (Option.some.inj ha)
      rw [hsame]
      exact hrunning x'
    · cases ha

/-- The strategies for one tool: an executable of the host, a name in a container, and a
downloaded executable, with the same options at the same root. -/
def sources (root name executable : String) (k : Container) (disabled : List UInt32) :
    List Strategy :=
  [.hostBinary ⟨name, root, lintOptions disabled⟩,
    .sandbox ⟨k, name, root⟩ (lintOptions disabled),
    .downloaded ⟨executable, root, lintOptions disabled⟩]

/-- These are the strategies that are provided. -/
theorem mem_sources_of_ran {i : Installer} {c : Config} {root : String} {source : ToolSource}
    {strategy : Strategy}
    (h : Ran answer (ofSource i c root source).run s asked (.ok strategy) s') :
    ∃ executable k, strategy ∈ sources root c.tool.name executable k c.tool.disabledRules := by
  cases source with
  | hostBinary =>
    obtain ⟨-, he, -⟩ := Action.ran_pure_iff.mp h
    cases he
    exact ⟨"", default, by simp [sources]⟩
  | sandbox =>
    rcases Action.ran_bind_iff.mp h with ⟨f, -, he⟩ | ⟨first, box, s₁, rest, hbox, hpure, rfl⟩
    · cases he
    · obtain ⟨-, he, -⟩ := Action.ran_pure_iff.mp hpure
      cases he
      obtain ⟨k, rfl⟩ := Sandbox.eq_of_ran_create hbox
      exact ⟨"", k, by simp [sources]⟩
  | download p =>
    rcases Action.ran_bind_iff.mp h with ⟨f, -, he⟩ | ⟨first, executable, s₁, rest, -, hpure, rfl⟩
    · cases he
    · obtain ⟨-, he, -⟩ := Action.ran_pure_iff.mp hpure
      cases he
      exact ⟨executable, default, by simp [sources]⟩

/-- Each of the strategies for one tool serves it, and calls it alike. -/
theorem exists_serves (hk : KeepsRegistry answer registry) {tool : Tool} (root : String)
    {name executable : String} {k : Container} {up : σ → Prop}
    (hhost : IsTool answer tool name) (hdownloaded : IsTool answer tool executable)
    (hbox : IsToolIn answer tool k name up) (hup : up s) (hheld : (registry s).Holds k .running)
    (disabled : List UInt32) :
    ∀ strategy ∈ sources root name executable k disabled, ∃ good, good s ∧
      Serves answer good (fun x => tool (lintOptions disabled ++ [x.text]) root) strategy ∧
      ∀ x, strategy.toolCall? (strategy.command x) =
        some (lintOptions disabled ++ [x.text], root) := by
  intro strategy hstrategy
  simp only [sources, List.mem_cons, List.not_mem_nil, or_false] at hstrategy
  rcases hstrategy with rfl | rfl | rfl
  · exact ⟨_, trivial, serves_local (Or.inl rfl) hhost, fun x => by simp [toolCall?, command]⟩
  · refine ⟨_, ⟨hup, ?_⟩, serves_sandbox hk hbox, fun x => by
      simp [toolCall?, command, Sandbox.execArgs]⟩
    show ((registry s).cell? k).any _ = false
    rw [hheld]
    rfl
  · exact ⟨_, trivial, serves_local (Or.inr rfl) hdownloaded, fun x => by
      simp [toolCall?, command]⟩

/-- **The verdict does not depend on the source of the tool.**  There is one tool, as an
executable of the host, as a downloaded one, and in a container that is up and held.  Its options
tell the rules that are disabled, and the strategies that have them are those that are provided
for a configuration and a root.  Whichever of the strategies is chosen, a script is linted by
one command, by which the tool gets the options and then the script in the root, so that the
outcome of the script, or the fault, is the same.  So is what many scripts come to with any number
of jobs, and with several jobs also in any order; and where there is a table of outcomes, it is
the same table, with the same problems and the same report. -/
theorem verdict_independent_of_source (hk : KeepsRegistry answer registry) {tool : Tool}
    (root : String) {name executable : String} {k : Container} {up : σ → Prop}
    (hhost : IsTool answer tool name) (hdownloaded : IsTool answer tool executable)
    (hbox : IsToolIn answer tool k name up) (hup : up s) (hheld : (registry s).Holds k .running)
    (disabled : List UInt32) :
    (∃ exclude, lintOptions disabled = "--external-sources" :: (exclude ++ ["--color=auto"]) ∧
      (disabled = [] ∧ exclude = [] ∨ disabled ≠ [] ∧ ∃ value, exclude = ["--exclude=" ++ value] ∧
        numbers value = disabled.map fun c => some c.toNat)) ∧
    (∀ (i : Installer) (c : Config) (source : ToolSource) (s₀ s₁ : σ) (asked : List Request)
      (strategy : Strategy), c.tool.name = name → c.tool.disabledRules = disabled →
        Ran answer (ofSource i c root source).run s₀ asked (.ok strategy) s₁ →
        ∃ executable k, strategy ∈ sources root name executable k disabled) ∧
    (∀ strategy ∈ sources root name executable k disabled, ∀ x : ScriptPath,
      ∃ asked s' c a, Ran answer (strategy.lint x).run s asked
          (outcome x (tool (lintOptions disabled ++ [x.text]) root)) s' ∧
        commands answer s asked = [(c, a)] ∧
        strategy.toolCall? c = some (lintOptions disabled ++ [x.text], root)) ∧
    ∀ strategy ∈ sources root name executable k disabled,
      ∀ strategy' ∈ sources root name executable k disabled, ∀ (jobs : Nat) (ss : List ScriptPath),
        ((strategy.lintAll jobs ss).run.run answer s).1 =
          ((strategy'.lintAll jobs ss).run.run answer s).1 ∧
        (∀ r,
          (∃ asked s', LintRun.Course answer jobs (fun x => (strategy.lint x).run) ss s asked r s') ↔
          ∃ asked s', LintRun.Course answer jobs (fun x => (strategy'.lint x).run) ss s asked r s') ∧
        ∀ asked asked' s₁ s₂ t r,
          LintRun.Course answer jobs (fun x => (strategy.lint x).run) ss s asked (.ok t) s₁ →
          LintRun.Course answer jobs (fun x => (strategy'.lint x).run) ss s asked' r s₂ →
          ∃ t', r = .ok t' ∧ t' = t ∧ ∀ allowed allowList,
            (Report.ofOutcomes ss allowed t' allowList).problems =
              (Report.ofOutcomes ss allowed t allowList).problems ∧
            ∀ format colored, (Report.ofOutcomes ss allowed t' allowList).render format colored =
              (Report.ofOutcomes ss allowed t allowList).render format colored := by
  have hserves := exists_serves hk root hhost hdownloaded hbox hup hheld disabled
  refine ⟨lintOptions_cases disabled, ?_, fun strategy hstrategy x => ?_,
    fun strategy hstrategy strategy' hstrategy' jobs ss => ?_⟩
  · rintro i c source s₀ s₁ asked strategy rfl rfl h
    exact mem_sources_of_ran h
  · obtain ⟨good, hgood, hs, hcall⟩ := hserves strategy hstrategy
    obtain ⟨asked, s', hran, hcommand⟩ := hs.ran_lint hgood x
    exact ⟨asked, s', _, _, hran, hcommand, hcall x⟩
  · obtain ⟨good, hgood, hs, -⟩ := hserves strategy hstrategy
    obtain ⟨good', hgood', hs', -⟩ := hserves strategy' hstrategy'
    refine ⟨?_, fun r => ?_, fun asked asked' s₁ s₂ t r ht hr => ?_⟩
    · rw [hs.lint_eq hgood (ran_run _ s), hs'.lint_eq hgood' (ran_run _ s)]
    · rw [hs.course_iff hgood, hs'.course_iff hgood']
    · have ht := (hs.course_iff hgood jobs ss _).mp ⟨_, _, ht⟩
      have hr := (hs'.course_iff hgood' jobs ss _).mp ⟨_, _, hr⟩
      exact ⟨t, ht.answers.eq_of_ok hr.answers, rfl, fun _ _ => ⟨rfl, fun _ _ => rfl⟩⟩

/-! ### A machine with one tool -/

/-- A tool that complains of one script and cannot be run on another. -/
def pickyTool : Tool := fun args _ =>
  if args.getLast? = some "c.sh" then .error .denied
  else if args.getLast? = some "b.sh" then .ok ⟨Text.encode "SC2086".toList, [], .code 1⟩
  else .ok ⟨[], [], .code 0⟩

/-- The container of that machine. -/
def pickyContainer : Container := ⟨"shellcheck-gate-1", "docker"⟩

/-- A machine on which every executable but the runtime is the tool; the state says whether the
container is up. -/
def pickyMachine : (r : Request) → Registry × Bool → r.Answer × (Registry × Bool)
  | .run c, (g, up) =>
    if c.program = "docker" then
      match c.args with
      | "exec" :: "--workdir" :: dir :: "shellcheck-gate-1" :: "shellcheck" :: args =>
        (if up then pickyTool args dir else .ok ⟨[], [], .code 1⟩, (g, up))
      | ["rm", "-f", "shellcheck-gate-1"] => (.ok ⟨[], [], .code 0⟩, (g, false))
      | _ => (.ok ⟨[], [], .code 0⟩, (g, up))
    else (pickyTool c.args (c.dir.getD ""), (g, up))
  | r, (g, up) => ((Gate.wellBehaved r g).1, ((Gate.wellBehaved r g).2, up))

theorem keepsRegistry_pickyMachine : KeepsRegistry pickyMachine Prod.fst := by
  refine ⟨fun _ _ => rfl, fun _ _ => rfl, fun r ⟨g, up⟩ h => ?_⟩
  cases r with
  | run c =>
    unfold pickyMachine
    dsimp only
    split
    · split <;> rfl
    · rfl
  | registry op => exact absurd rfl (h op)
  | _ => rfl

theorem isToolIn_pickyMachine :
    IsToolIn pickyMachine pickyTool pickyContainer "shellcheck" fun s => s.2 = true := by
  refine ⟨fun args dir cwd s hup => ?_, fun r ⟨g, up⟩ hup h => ?_⟩
  · simp [pickyMachine, pickyContainer, hup]
  · cases r with
    | run c =>
      have hremoval := h c rfl
      unfold pickyMachine
      dsimp only
      split
      · next hprogram =>
        split
        · exact hup
        · next hargs => simp [Command.removalOf?, hargs, hprogram, pickyContainer] at hremoval
        · exact hup
      · exact hup
    | _ => exact hup

/-- The container is up and held once. -/
def pickyStart : Registry × Bool := (⟨[⟨pickyContainer, .running, 1⟩], []⟩, true)

/-- Two jobs on three scripts come to the same in the container and with a downloaded
executable. -/
theorem verdict_independent_of_source_picky :
    IsTool pickyMachine pickyTool "shellcheck" ∧
    IsTool pickyMachine pickyTool "/cache/shellcheck" ∧
    IsToolIn pickyMachine pickyTool pickyContainer "shellcheck" (fun s => s.2 = true) ∧
    (((Strategy.sandbox ⟨pickyContainer, "shellcheck", "/r"⟩ (lintOptions [2034, 1091])).lintAll 2
        [⟨"a.sh"⟩, ⟨"b.sh"⟩, ⟨"c.sh"⟩]).run.run pickyMachine pickyStart).1 =
      (((Strategy.downloaded ⟨"/cache/shellcheck", "/r", lintOptions [2034, 1091]⟩).lintAll 2
        [⟨"a.sh"⟩, ⟨"b.sh"⟩, ⟨"c.sh"⟩]).run.run pickyMachine pickyStart).1 := by
  have hhost : IsTool pickyMachine pickyTool "shellcheck" := fun args dir s => by
    simp [pickyMachine]
  have hdownloaded : IsTool pickyMachine pickyTool "/cache/shellcheck" := fun args dir s => by
    simp [pickyMachine]
  obtain ⟨-, -, -, hsame⟩ := verdict_independent_of_source (s := pickyStart)
    keepsRegistry_pickyMachine "/r" hhost hdownloaded isToolIn_pickyMachine rfl rfl [2034, 1091]
  refine ⟨hhost, hdownloaded, isToolIn_pickyMachine,
    (hsame _ ?_ _ ?_ 2 [⟨"a.sh"⟩, ⟨"b.sh"⟩, ⟨"c.sh"⟩]).1⟩
  · simp [sources]
  · simp [sources]

end Strategy
end LintGate
