import LintGate.Proofs.Discovery.Identity
import LintGate.Proofs.Strategy.Independence

/-!
# Scripts that are taken for options

A tool takes an argument for an option if it begins with a dash and no `--` stands in front
of it.  Git is asked about a script behind `--`.  The lint tool gets the script right behind its
options, and `--` is not among these; so all depends on the names of the files.

## Main definitions

* `IsOperand` — an argument that is not taken for an option.
* `leadsToDash` — the paths of the files whose scripts have a dash in front.
* `Strategy.options`, `Strategy.root` — what the tool gets in front of a script, and where it
  works.

## Main results

* `ScriptPath.head?_normalize_iff` — the scripts with a dash in front.
* `Strategy.asks_callsTool` — to lint a script is to call the tool with the options and then the
  script.
* `Strategy.finds_operands_iff` — **exactly when no script is taken for an option.**
-/

namespace LintGate

open Program Text

/-- Whether an argument is an operand behind other arguments: it does not begin with a dash, or
two dashes stand in front of it. -/
def IsOperand (before : List String) (x : String) : Prop :=
  x.toList.head? ≠ some '-' ∨ "--" ∈ before

instance (before : List String) (x : String) : Decidable (IsOperand before x) :=
  inferInstanceAs (Decidable (_ ∨ _))

/-! ### Paths with a dash in front -/

/-- Whether a path begins with a dash, once the dots in front of it are dropped, each with a
slash or a backslash behind it. -/
def leadsToDash : List Char → Bool
  | '-' :: _ => true
  | '.' :: c :: cs => (c = '/' || c = '\\') && leadsToDash cs
  | _ => false

@[simp] theorem leadsToDash_nil : leadsToDash [] = false := rfl

@[simp] theorem leadsToDash_dash (cs : List Char) : leadsToDash ('-' :: cs) = true := rfl

@[simp] theorem leadsToDash_singleton_dot : leadsToDash ['.'] = false := rfl

@[simp] theorem leadsToDash_dot (c : Char) (cs : List Char) :
    leadsToDash ('.' :: c :: cs) = ((c = '/' || c = '\\') && leadsToDash cs) := rfl

theorem leadsToDash_of_ne {c : Char} (hdash : c ≠ '-') (hdot : c ≠ '.') (cs : List Char) :
    leadsToDash (c :: cs) = false := by
  unfold leadsToDash
  split <;> simp_all

/-- Blanks behind a path do not count. -/
theorem leadsToDash_append {blanks : List Char} (h : ∀ c ∈ blanks, isBlank c = true)
    (cs : List Char) : leadsToDash (cs ++ blanks) = leadsToDash cs := by
  have hblank : ∀ c ∈ blanks, c ≠ '-' ∧ c ≠ '.' ∧ c ≠ '/' ∧ c ≠ '\\' := by
    intro c hc
    refine ⟨?_, ?_, ?_, ?_⟩ <;> rintro rfl <;> exact absurd (h _ hc) (by decide)
  induction cs using leadsToDash.induct with
  | case1 cs => rfl
  | case2 c cs ih => simp [ih]
  | case3 cs hdash hdot =>
    match cs, blanks with
    | [], [] => rfl
    | [], b :: bs =>
      obtain ⟨hb, hb', -⟩ := hblank b List.mem_cons_self
      exact leadsToDash_of_ne hb hb' bs
    | [c], [] => rfl
    | [c], b :: bs =>
      obtain ⟨-, -, hb, hb'⟩ := hblank b List.mem_cons_self
      by_cases hc : c = '.'
      · simp [hc, hb, hb']
      · have hc' : c ≠ '-' := fun he => hdash [] (by rw [he])
        rw [List.singleton_append, leadsToDash_of_ne hc' hc, leadsToDash_of_ne hc' hc]
    | c :: d :: cs, _ =>
      have hc : c ≠ '.' := fun he => hdot d cs (by rw [he])
      have hc' : c ≠ '-' := fun he => hdash (d :: cs) (by rw [he])
      rw [List.cons_append, leadsToDash_of_ne hc' hc, leadsToDash_of_ne hc' hc]

namespace ScriptPath

/-- What stands in front of a path once its dots are dropped. -/
theorem head?_dropDots_iff (cs : List Char) :
    (Path.dropDots (cs.map slashed)).head? = some '-' ↔ leadsToDash cs = true := by
  induction cs using leadsToDash.induct with
  | case1 cs =>
    have hdash : slashed '-' = '-' := by decide
    rw [List.map_cons, hdash, Path.dropDots_of_ne (by simp)]
    simp
  | case2 c cs ih =>
    have hdot : slashed '.' = '.' := by decide
    rw [List.map_cons, List.map_cons, hdot, leadsToDash_dot]
    by_cases hc : slashed c = '/'
    · have hc' : c = '/' ∨ c = '\\' := by
        unfold slashed at hc
        split at hc
        · next h => exact Or.inr h
        · exact Or.inl hc
      rw [hc, Path.dropDots_dot, ih]
      simp [hc']
    · have hc' : ¬ (c = '/' ∨ c = '\\') := by
        rintro (rfl | rfl) <;> exact hc (by decide)
      rw [Path.dropDots_of_ne (by simp [hc])]
      simp [hc']
  | case3 cs hdash hdot =>
    cases cs with
    | nil => simp
    | cons c cs =>
      have hc : c ≠ '-' := fun he => hdash cs (by rw [he])
      by_cases hc' : c = '.'
      · -- a dot at the end of the path
        obtain rfl : cs = [] := by
          cases cs with
          | nil => rfl
          | cons d cs => exact absurd (by rw [hc']) (hdot d cs)
        subst hc'
        decide
      · have hslashed : slashed c ≠ '-' ∧ slashed c ≠ '.' := by
          unfold slashed
          split
          · decide
          · exact ⟨hc, hc'⟩
        rw [leadsToDash_of_ne hc hc', List.map_cons, Path.dropDots_of_ne (by simp [hslashed.2])]
        simp [hslashed.1]

/-- **The scripts with a dash in front**: blanks and dots may stand in front of it in the path
that was written. -/
theorem head?_normalize_iff (cs : List Char) :
    (normalize cs).head? = some '-' ↔ leadsToDash (stripStart cs) = true := by
  obtain ⟨blanks, hcs, hblank⟩ := exists_append_stripEnd (stripStart cs)
  rw [normalize, head?_dropDots_iff, strip]
  conv_rhs => rw [hcs, leadsToDash_append hblank]

/-- The files whose scripts have a dash in front. -/
theorem head?_ofNames_iff (ns : Names) :
    (ofNames ns).text.toList.head? = some '-' ↔
      leadsToDash (stripStart (joinWith ['/'] ns)) = true := by
  rw [ofNames, String.toList_ofList, head?_normalize_iff]

end ScriptPath

/-! ### What the tool gets -/

/-- No option that the tool is given ends the options. -/
theorem dashes_not_mem_lintOptions (disabled : List UInt32) : "--" ∉ lintOptions disabled := by
  obtain ⟨exclude, hoptions, ⟨-, rfl⟩ | ⟨-, value, rfl, -⟩⟩ := lintOptions_cases disabled
  · rw [hoptions]
    decide
  · have hvalue : "--" ≠ "--exclude=" ++ value := by
      intro he
      have hlength := congrArg String.length he
      rw [String.length_append] at hlength
      have : "--exclude=".length = 10 := by decide
      have : "--".length = 2 := by decide
      omega
    rw [hoptions]
    simp [hvalue]

namespace Strategy

/-- The options that the tool is given. -/
def options : Strategy → List String
  | .hostBinary t | .downloaded t => t.args
  | .sandbox _ args => args

/-- The directory that the tool works in. -/
def root : Strategy → String
  | .hostBinary t | .downloaded t => t.root
  | .sandbox box _ => box.root

/-- The command that lints a script calls the tool with the options and then the script. -/
theorem toolCall?_command (strategy : Strategy) (x : ScriptPath) :
    strategy.toolCall? (strategy.command x) =
      some (strategy.options ++ [x.text], strategy.root) := by
  cases strategy with
  | hostBinary t => simp [toolCall?, command, options, root]
  | sandbox box args => simp [toolCall?, command, Sandbox.execArgs, options, root]
  | downloaded t => simp [toolCall?, command, options, root]

/-- The requests that run no other command than one that gives the tool its options and then a
script. -/
def CallsTool (strategy : Strategy) (x : ScriptPath) (r : Request) : Prop :=
  ∀ c, r = .run c → strategy.toolCall? c = some (strategy.options ++ [x.text], strategy.root)

/-- To lint a script is to call the tool with the options and then the script. -/
theorem asks_callsTool (strategy : Strategy) (x : ScriptPath) :
    (strategy.lint x).run.Asks (strategy.CallsTool x) := by
  refine (asks_lint strategy x).mono fun r hr c hc => ?_
  rcases hr with rfl | ⟨k, -, rfl⟩
  · cases hc
    exact toolCall?_command strategy x
  · cases hc

/-- A strategy that was provided has the options of the configuration. -/
theorem options_of_ran {σ : Type} {answer : (r : Request) → σ → r.Answer × σ} {s s' : σ}
    {asked : List Request} {i : Installer} {c : Config} {root : String} {source : ToolSource}
    {strategy : Strategy} (h : Ran answer (ofSource i c root source).run s asked (.ok strategy) s') :
    strategy.options = lintOptions c.tool.disabledRules := by
  obtain ⟨executable, k, hmem⟩ := mem_sources_of_ran h
  simp only [sources, List.mem_cons, List.not_mem_nil, or_false] at hmem
  rcases hmem with rfl | rfl | rfl <;> rfl

end Strategy

/-- Git is asked about a script behind two dashes. -/
theorem Git.asks_operand (root : String) (x : ScriptPath) :
    (isIgnored root x).run.Asks fun r =>
      ∃ before, r = .run ⟨"git", before ++ [x.text], some root⟩ ∧ IsOperand before x.text := by
  have hquery : IsOperand ["check-ignore", "-q", "--"] x.text := Or.inr (by decide)
  refine Action.asks_bind (Action.asks_trial (asks_send ⟨_, rfl, hquery⟩) _) fun o => ?_
  split
  · exact Action.asks_pure _
  · exact Action.asks_pure _
  · exact Action.asks_throw _

/-! ### Scripts as operands -/

namespace Strategy

variable {σ : Type} {answer : (r : Request) → σ → r.Answer × σ}

/-- **Exactly when no script is taken for an option.**  Whatever strategy lints a script, and on
whatever machine, the tool gets the options and then the script.  The scripts of a tree are all
operands if and only if `--` is one of the options, or no file that they are found at has a path
that leads to a dash.  A strategy that was provided has no such option.  Git is asked about any
script as an operand. -/
theorem finds_operands_iff (f : Discovery.Filter) (ignored : ScriptPath → Bool) (name : List Char)
    (es : List Entry) (strategy : Strategy) :
    Discovery.find (m := Id) f (fun s => pure (ignored s)) (some (.directory name es)) =
      pure ((f.kept ignored es).map ScriptPath.ofNames) ∧
    (∀ x, (strategy.lint x).run.Asks (strategy.CallsTool x)) ∧
    ((∀ x ∈ (f.kept ignored es).map ScriptPath.ofNames, IsOperand strategy.options x.text) ↔
      "--" ∈ strategy.options ∨
        ∀ ns ∈ f.kept ignored es, leadsToDash (stripStart (joinWith ['/'] ns)) = false) ∧
    (∀ (i : Installer) (c : Config) (root : String) (source : ToolSource) (s s' : σ)
      (asked : List Request), Ran answer (ofSource i c root source).run s asked (.ok strategy) s' →
        "--" ∉ strategy.options) ∧
    ∀ (root : String) (x : ScriptPath), (Git.isIgnored root x).run.Asks fun r =>
      ∃ before, r = .run ⟨"git", before ++ [x.text], some root⟩ ∧ IsOperand before x.text := by
  refine ⟨Discovery.find_eq_kept f ignored name es, asks_callsTool strategy, ?_, ?_,
    Git.asks_operand⟩
  · have hoperand : ∀ ns : Names, IsOperand strategy.options (ScriptPath.ofNames ns).text ↔
        "--" ∈ strategy.options ∨ leadsToDash (stripStart (joinWith ['/'] ns)) = false := by
      intro ns
      rw [IsOperand, Ne, ScriptPath.head?_ofNames_iff, Bool.not_eq_true, or_comm]
    simp only [List.forall_mem_map, hoperand]
    by_cases hdashes : "--" ∈ strategy.options
    · simp [hdashes]
    · simp [hdashes]
  · intro i c root source s s' asked h
    rw [options_of_ran h]
    exact dashes_not_mem_lintOptions c.tool.disabledRules

/-- A dash below a directory does no harm: the executable of the host gets both scripts as
operands. -/
theorem finds_operands_below :
    Ran pickyMachine (ofSource ⟨"/c"⟩ {} "/r" .hostBinary).run pickyStart []
      (.ok (.hostBinary ⟨"shellcheck", "/r", lintOptions [1090, 1091, 2230]⟩)) pickyStart ∧
    "--" ∉ lintOptions [1090, 1091, 2230] ∧
    ∀ x ∈ [(⟨"a.sh"⟩ : ScriptPath), ⟨"lib/-b.sh"⟩],
      IsOperand (lintOptions [1090, 1091, 2230]) x.text := by
  have hran : Ran pickyMachine (ofSource ⟨"/c"⟩ {} "/r" .hostBinary).run pickyStart []
      (.ok (.hostBinary ⟨"shellcheck", "/r", lintOptions [1090, 1091, 2230]⟩)) pickyStart :=
    ⟨rfl, rfl⟩
  have hkept : Discovery.Filter.kept ⟨["sh"], ⟨[], []⟩⟩ (fun _ => false)
      [.file "a.sh".toList, .directory "lib".toList [.file "-b.sh".toList]] =
        [["a.sh".toList], ["lib".toList, "-b.sh".toList]] := by cbv
  obtain ⟨-, -, hiff, hprovided, -⟩ := @finds_operands_iff _ pickyMachine
    ⟨["sh"], ⟨[], []⟩⟩ (fun _ => false) []
    [.file "a.sh".toList, .directory "lib".toList [.file "-b.sh".toList]]
    (.hostBinary ⟨"shellcheck", "/r", lintOptions [1090, 1091, 2230]⟩)
  have hscripts : [["a.sh".toList], ["lib".toList, "-b.sh".toList]].map ScriptPath.ofNames =
      [⟨"a.sh"⟩, ⟨"lib/-b.sh"⟩] := by decide
  rw [hkept, hscripts] at hiff
  exact ⟨hran, hprovided _ _ _ _ _ _ _ hran, hiff.mpr (Or.inr (by decide))⟩

/-- A file below the root with a dash in front of its name is found, and none of the strategies
passes it to the tool as an operand. -/
theorem finds_operands_not_dash :
    (∃ f : Discovery.Filter, Discovery.Filter.ofConfig? ⟨["sh"], [], [], "list"⟩ = .ok f ∧
      Discovery.find (m := Id) f (fun _ => pure false)
        (some (.directory [] [.file "-a.sh".toList])) = pure [⟨"-a.sh"⟩]) ∧
    (∀ strategy ∈ sources "/r" "shellcheck" "/c/shellcheck" ⟨"shellcheck-gate-1", "docker"⟩ [1090],
      strategy.toolCall? (strategy.command ⟨"-a.sh"⟩) =
        some (["--external-sources", "--exclude=1090", "--color=auto"] ++ ["-a.sh"], "/r")) ∧
    ¬ IsOperand ["--external-sources", "--exclude=1090", "--color=auto"] "-a.sh" := by
  refine ⟨⟨⟨["sh"], ⟨[], []⟩⟩, by cbv, by cbv⟩, ?_, by decide⟩
  have hoptions : lintOptions [1090] =
      ["--external-sources", "--exclude=1090", "--color=auto"] := by decide
  intro strategy hstrategy
  simp only [sources, hoptions, List.mem_cons, List.not_mem_nil, or_false] at hstrategy
  rcases hstrategy with rfl | rfl | rfl <;> exact toolCall?_command _ _

end Strategy
end LintGate
