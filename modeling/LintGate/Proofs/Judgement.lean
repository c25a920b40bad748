import LintGate.Judgement
import LintGate.Proofs.Json.RoundTrip
import LintGate.Proofs.Lint.Problems
import LintGate.Proofs.Lint.Run

/-!
# When a tree passes

## Main results

* `judge_eq_pure` — what a run with a linter that never faults reports.
* `isClean_ofOutcomes_iff` — a report is clean exactly if the list names the scripts
  that are not silent.
* `judge_passed_iff` — **the gate passes exactly if the allow-list is the set of
  scripts that have a diagnostic.**
-/

namespace LintGate

open Text

/-- The value of the first field of an object with a name. -/
def Json.field? : Json → String → Option Json
  | .object fields, name => (fields.find? fun f => f.1 == name).map Prod.snd
  | _, _ => none

/-! ### Outcomes -/

theorem LintOutcome.ofOutput_eq_clean_iff {o : Output} :
    LintOutcome.ofOutput o = .clean ↔ isAllBlank o.combined = true := by
  unfold ofOutput ofText
  split <;> simp_all

theorem LintOutcome.ofOutput_eq_failed {o : Output} (h : isAllBlank o.combined = false) :
    LintOutcome.ofOutput o = .failed (String.ofList o.combined) := by
  simp [ofOutput, ofText, h]

/-! ### Entries -/

/-- The entries of an allow-list are the scripts that its lines name. -/
theorem AllowList.mem_entries_of_parse {path content : String} {allowed : AllowList}
    (h : AllowList.parse path content = .ok allowed) (s : ScriptPath) :
    s ∈ allowed.entries.toList ↔
      ∃ l ∈ AllowList.significantLines content, ScriptPath.ofText l = s := by
  unfold AllowList.parse at h
  dsimp only at h
  split at h
  · cases h
    rw [OrderedSet.mem_ofList, List.mem_map]
  · cases h

/-! ### Reports -/

/-- An allow-list is exact if its entries are the scripts found whose output is not
blank. -/
def AllowList.IsExact (allowed : AllowList) (found : List ScriptPath)
    (output : ScriptPath → Output) : Prop :=
  ∀ s, s ∈ allowed.entries.toList ↔ s ∈ found ∧ isAllBlank (output s).combined = false

/-- A report has no problems exactly if the list is exact. -/
theorem isClean_ofOutcomes_iff (found : List ScriptPath) (allowed : AllowList)
    (output : ScriptPath → Output) (name : String) :
    (Report.ofOutcomes found allowed
        (OrderedMap.ofList (found.map fun s => (s, LintOutcome.ofOutput (output s))))
        name).problems.isClean = true ↔ allowed.IsExact found output := by
  have hget : ∀ s ∈ found,
      (OrderedMap.ofList (found.map fun s => (s, LintOutcome.ofOutput (output s)))).get? s =
        some (.ofOutput (output s)) := fun s hs => by
    rw [OrderedMap.get?_ofList_map (fun s => LintOutcome.ofOutput (output s)), if_pos hs]
  show (classify found allowed _).isClean = true ↔ _
  rw [isClean_classify_iff]
  constructor
  · rintro ⟨hfailed, hclean, hlisted⟩ s
    constructor
    · -- a listed script is found, so it is no stale entry, and then it is not clean
      intro hl
      have hs := hlisted s hl
      refine ⟨hs, Bool.eq_false_iff.mpr fun hblank => ?_⟩
      refine hclean s hs ?_ hl
      rw [hget s hs, LintOutcome.ofOutput_eq_clean_iff.mpr hblank]
    · rintro ⟨hs, hblank⟩
      refine hfailed s hs (String.ofList (output s).combined) ?_
      rw [hget s hs, LintOutcome.ofOutput_eq_failed hblank]
  · intro h
    refine ⟨fun s hs d hd => ?_, fun s hs hc hl => ?_, fun s hl => ((h s).mp hl).1⟩
    · refine (h s).mpr ⟨hs, Bool.eq_false_iff.mpr fun hblank => ?_⟩
      rw [hget s hs, LintOutcome.ofOutput_eq_clean_iff.mpr hblank] at hd
      cases hd
    · rw [hget s hs, Option.some_inj, LintOutcome.ofOutput_eq_clean_iff] at hc
      rw [((h s).mp hl).2] at hc
      cases hc

/-- A run passes exactly if it found no problems, and the exit code and the JSON report
say so. -/
theorem Report.verdict_cases (r : Report) :
    (r.problems.isClean = true ∧ r.verdict = .passed ∧ r.verdict.exitCode = 0 ∧
        r.toJson.field? "passed" = some (.bool true)) ∨
      (r.problems.isClean = false ∧ r.verdict = .failed ∧ r.verdict.exitCode = 1 ∧
        r.toJson.field? "passed" = some (.bool false)) := by
  have hfield : r.toJson.field? "passed" = some (.bool r.problems.isClean) := rfl
  cases h : r.problems.isClean with
  | true => exact Or.inl ⟨rfl, by simp [verdict, Verdict.ofProblems, h], by
      simp [verdict, Verdict.ofProblems, h], by rw [hfield, h]⟩
  | false => exact Or.inr ⟨rfl, by simp [verdict, Verdict.ofProblems, h], by
      simp [verdict, Verdict.ofProblems, h], by rw [hfield, h]⟩

/-! ### Runs -/

section Run

variable {m : Type → Type} [Monad m] [LawfulMonad m]

/-- What a run with a linter that never faults reports. -/
theorem judge_eq_pure {allowed : AllowList} {c : DiscoveryConfig} {filter : Discovery.Filter}
    (hc : Discovery.Filter.ofConfig? c = .ok filter) (files : List ScriptPath) (jobs : Nat)
    (f : ScriptPath → LintOutcome) :
    (judge allowed c files jobs fun s => (pure (.ok (f s)) : m (Except Fault LintOutcome))).run =
      pure (.ok (.ofOutcomes (files.filter filter.eligible) allowed
        (OrderedMap.ofList ((files.filter filter.eligible).map fun s => (s, f s)))
        allowed.path)) := by
  simp only [judge, hc, ExceptT.run_bind, ExceptT.run_mk, pure_bind, LintRun.lint_pure,
    ExceptT.run_pure]

/-- **The gate passes exactly if the allow-list is the set of scripts that have a
diagnostic.**  The list is any text that is in order, the configuration any whose rules
are patterns; the files are written in any way, each any number of times, and every
script has some output.  Then there is a report.  The run passes with exit code 0 if the
entries are the scripts that the rules leave and whose output is not blank, and else it
fails with exit code 1.  What is printed of a JSON report is read as a value that says which. -/
theorem judge_passed_iff {path content : String} {allowed : AllowList} {c : DiscoveryConfig}
    {filter : Discovery.Filter} (hl : AllowList.parse path content = .ok allowed)
    (hc : Discovery.Filter.ofConfig? c = .ok filter) (files : List String) (jobs : Nat)
    (output : ScriptPath → Output) :
    (∀ s, s ∈ allowed.entries.toList ↔
      ∃ l ∈ AllowList.significantLines content, ScriptPath.ofText l = s) ∧
    ∃ report : Report,
      (judge allowed c (files.map ScriptPath.ofText) jobs fun s =>
        (pure (.ok (.ofOutput (output s))) : m (Except Fault LintOutcome))).run =
          pure (.ok report) ∧
      (allowed.IsExact ((files.map ScriptPath.ofText).filter filter.eligible) output ∧
          report.verdict = .passed ∧ report.verdict.exitCode = 0 ∨
        ¬ allowed.IsExact ((files.map ScriptPath.ofText).filter filter.eligible) output ∧
          report.verdict = .failed ∧ report.verdict.exitCode = 1) ∧
      ∀ colored, (report.render .json colored).err = "" ∧
        ∃ printed, Json.ofText? (report.render .json colored).out.toList = some printed ∧
          printed.field? "passed" = some (.bool (report.verdict.exitCode == 0)) := by
  refine ⟨AllowList.mem_entries_of_parse hl, _, judge_eq_pure hc _ jobs _, ?_, fun _ =>
    ⟨rfl, _, Json.ofText?_document _, ?_⟩⟩
  · rw [← isClean_ofOutcomes_iff _ _ _ allowed.path]
    rcases Report.verdict_cases (.ofOutcomes ((files.map ScriptPath.ofText).filter
      filter.eligible) allowed _ allowed.path) with ⟨h, hv, he, -⟩ | ⟨h, hv, he, -⟩
    · exact Or.inl ⟨h, hv, he⟩
    · exact Or.inr ⟨Bool.eq_false_iff.mp h, hv, he⟩
  · rcases Report.verdict_cases (.ofOutcomes ((files.map ScriptPath.ofText).filter
      filter.eligible) allowed _ allowed.path) with ⟨-, -, he, hj⟩ | ⟨-, -, he, hj⟩
    · rw [hj, he]; rfl
    · rw [hj, he]; rfl

end Run

/-- A tool that complains of one script only, on its second stream. -/
def complaintOf (noisy s : ScriptPath) : Output :=
  ⟨[], if s = noisy then [83, 67] else [10], .code 0⟩

/-- Two spellings of one listed script that fails, a clean one, and one that a rule keeps out. -/
theorem judge_passed_one_listed :
    AllowList.parse "list" "\n./b.sh\n" = .ok ⟨"list", .ofList [⟨"b.sh"⟩]⟩ ∧
    Discovery.Filter.ofConfig? ⟨["sh"], ["v*"], [], "list"⟩ =
      .ok ⟨["sh"], ⟨[⟨[[.char 'v', .run]]⟩], []⟩⟩ ∧
    ∃ report : Report,
      (judge (m := Id) ⟨"list", .ofList [⟨"b.sh"⟩]⟩ ⟨["sh"], ["v*"], [], "list"⟩
        (["a.sh", "b.sh", ".\\b.sh", "vendor/x.sh"].map ScriptPath.ofText) 2 fun s =>
          pure (.ok (.ofOutput (complaintOf ⟨"b.sh"⟩ s)))).run = pure (.ok report) ∧
      report.verdict = .passed ∧
      ∃ printed, Json.ofText? (report.render .json false).out.toList = some printed ∧
        printed.field? "passed" = some (.bool true) := by
  have hl : AllowList.parse "list" "\n./b.sh\n" = .ok ⟨"list", .ofList [⟨"b.sh"⟩]⟩ := rfl
  have hc : Discovery.Filter.ofConfig? ⟨["sh"], ["v*"], [], "list"⟩ =
      .ok ⟨["sh"], ⟨[⟨[[.char 'v', .run]]⟩], []⟩⟩ := by decide +kernel
  obtain ⟨-, report, hrun, hcases, hjson⟩ := judge_passed_iff (m := Id) hl hc
    ["a.sh", "b.sh", ".\\b.sh", "vendor/x.sh"] 2 (complaintOf ⟨"b.sh"⟩)
  obtain ⟨-, printed, hprinted, hfield⟩ := hjson false
  have hexact : AllowList.IsExact ⟨"list", .ofList [⟨"b.sh"⟩]⟩
      ((["a.sh", "b.sh", ".\\b.sh", "vendor/x.sh"].map ScriptPath.ofText).filter
        (Discovery.Filter.eligible ⟨["sh"], ⟨[⟨[[.char 'v', .run]]⟩], []⟩⟩))
      (complaintOf ⟨"b.sh"⟩) := by
    have hkept : (["a.sh", "b.sh", ".\\b.sh", "vendor/x.sh"].map ScriptPath.ofText).filter
        (Discovery.Filter.eligible ⟨["sh"], ⟨[⟨[[.char 'v', .run]]⟩], []⟩⟩) =
          [⟨"a.sh"⟩, ⟨"b.sh"⟩, ⟨"b.sh"⟩] := by decide +kernel
    intro s
    rw [hkept, OrderedSet.mem_ofList]
    by_cases hs : s = ⟨"b.sh"⟩
    · subst hs
      exact iff_of_true (by simp) ⟨by simp, by decide +kernel⟩
    · have hsilent : isAllBlank (complaintOf ⟨"b.sh"⟩ s).combined = true := by
        unfold complaintOf
        rw [if_neg hs]
        decide +kernel
      simp [hs, hsilent]
  rcases hcases with ⟨-, hv, hcode⟩ | ⟨hn, -⟩
  · rw [hcode] at hfield
    exact ⟨hl, hc, report, hrun, hv, printed, hprinted, hfield⟩
  · exact absurd hexact hn

end LintGate
