import Mathlib.Data.String.Basic
import LintGate.Machine.Scripted
import LintGate.Proofs.Report
import LintGate.Proofs.Report.Writing
import LintGate.Proofs.Text.Blank
import LintGate.Proofs.Text.Style

/-!
# What a report for people holds

A run without problems is confirmed on the standard output.  Else the standard error lists the
problems, kind by kind: how many there are, all of them in the order of their bytes, and what to do
about them.  Colours add codes and nothing else, and neither they nor the form of the report change
how a run ends, as long as the report can be written.

## Main definitions

* `Report.Lists` — how the members of a set are listed.
* `Report.EscapeFree` — a report in whose texts no code can start.
* `Verify.reporting` — a run that reports with or without colours.
* `TakesPrints` — machines that take all that is printed.

## Main results

* `Report.lists_failuresText`, `Report.lists_removalsText` — each kind of problem is listed.
* `Report.sheds_problemsText` — without its codes, a coloured list is the one without colours.
* `Verify.run_reporting_fst` — how a run ends is told by its problems, unless its report is refused.
* `Report.human_complete` — **a report for people is complete.**
-/

namespace LintGate

open Program Text

namespace Report

/-! ### Lists of problems -/

/-- How the members of a set are listed, each by its text. -/
inductive Lists (heading : String) (members : List String) (advice : String) : String → Prop
  /-- Nothing is said of a set without members. -/
  | nothing (h : members = []) : Lists heading members advice ""
  /-- The heading has a line of its own.  All members follow, and then the advice. -/
  | listed (h : members ≠ []) :
    Lists heading members advice (line heading ++ String.join members ++ advice)

variable (r : Report)

/-- The diagnostics without the blanks they end with, each with an empty line behind it. -/
def diagnostics : List String :=
  r.problems.unexpectedFailures.entries.map fun e => line (trimEnd e.2) ++ line ""

/-- Paths on lines of their own, with two blanks in front. -/
def pathLines (s : OrderedSet ScriptPath) : List String :=
  s.toList.map fun e => line ("  " ++ e.text)

/-- What to do about scripts that fail. -/
def fixAdvice : String :=
  line "Please review the above warnings and fix them." ++
    line ("If a warning does not make sense, exempt it with a `# shellcheck disable=SCxxxx` " ++
      "comment, or (with your reviewer's approval) add the file to " ++ r.allowList ++ ".") ++
    line ""

/-- What to do about entries that should not be on the allow-list. -/
def removalAdvice : String := line ("Please remove them from " ++ r.allowList ++ ".") ++ line ""

/-- A text that is left out where there is no member. -/
theorem lists_ite {heading advice text : String} {members : List String} {isEmpty : Bool}
    (hempty : isEmpty = true ↔ members = [])
    (htext : text = line heading ++ String.join members ++ advice) :
    Lists heading members advice (if isEmpty then "" else text) := by
  split
  · next h => exact .nothing (hempty.mp h)
  · next h =>
    rw [htext]
    exact .listed fun hnil => h (hempty.mpr hnil)

/-- The failing scripts are listed by their diagnostics. -/
theorem lists_failuresText (colored : Bool) :
    Lists (paint colored .redBold ("❌ " ++
        toString r.problems.unexpectedFailures.entries.length ++ " script(s) fail ShellCheck:"))
      r.diagnostics r.fixAdvice (r.failuresText colored) := by
  have hempty : r.problems.unexpectedFailures.isEmpty = true ↔ r.diagnostics = [] := by
    rw [OrderedMap.isEmpty, List.isEmpty_iff, diagnostics, List.map_eq_nil_iff]
  rw [failuresText]
  refine lists_ite hempty ?_
  rw [diagnostics, fixAdvice, OrderedMap.size, ← String.append_assoc, ← String.append_assoc]

/-- Entries to take off the allow-list are listed by their paths. -/
theorem lists_removalsText (colored : Bool) (heading : String) (s : OrderedSet ScriptPath) :
    Lists (paint colored .yellowBold ("⚠️  " ++ toString s.toList.length ++ heading))
      (pathLines s) r.removalAdvice (r.removalsText colored heading s) := by
  have hempty : s.isEmpty = true ↔ pathLines s = [] := by
    rw [OrderedSet.isEmpty, List.isEmpty_iff, pathLines, List.map_eq_nil_iff]
  rw [removalsText]
  refine lists_ite hempty ?_
  rw [pathLines, removalAdvice, OrderedSet.size, ← String.append_assoc]

/-! ### Without colours -/

/-- No code starts in the texts of a report. -/
structure EscapeFree (r : Report) : Prop where
  allowList : escape ∉ r.allowList.toList
  diagnostics : ∀ e ∈ r.problems.unexpectedFailures.entries, escape ∉ e.2.toList
  stalePasses : ∀ e ∈ r.problems.stalePasses.toList, escape ∉ e.text.toList
  staleEntries : ∀ e ∈ r.problems.staleEntries.toList, escape ∉ e.text.toList

theorem escape_not_mem_append {s t : String} (hs : escape ∉ s.toList) (ht : escape ∉ t.toList) :
    escape ∉ (s ++ t).toList := by
  rw [String.toList_append, List.mem_append]
  exact not_or.mpr ⟨hs, ht⟩

theorem escape_not_mem_line {s : String} (h : escape ∉ s.toList) : escape ∉ (line s).toList :=
  escape_not_mem_append h (by decide)

theorem escape_not_mem_join {ss : List String} (h : ∀ s ∈ ss, escape ∉ s.toList) :
    escape ∉ (String.join ss).toList := by
  rw [String.join_eq, String.toList_ofList, List.mem_flatten]
  rintro ⟨cs, hcs, hc⟩
  obtain ⟨s, hs, rfl⟩ := List.mem_map.mp hcs
  exact h s hs hc

theorem escape_not_mem_toString (n : Nat) : escape ∉ (toString n).toList := by
  intro h
  have hdigit : escape.isDigit = true := by
    refine Nat.isDigit_of_mem_toDigits (b := 10) (n := n) (by decide) (by decide) ?_
    simpa [toString, Nat.repr] using h
  exact absurd hdigit (by decide)

theorem escape_not_mem_trimEnd {s : String} (h : escape ∉ s.toList) :
    escape ∉ (trimEnd s).toList := by
  rw [trimEnd, String.toList_ofList]
  exact fun hmem => h ((isPrefix_stripEnd _).subset hmem)

/-- A list in colours is one without them as soon as this holds of the headings. -/
theorem Lists.sheds {heading heading' advice colored plain : String} {members : List String}
    (h : Lists heading members advice colored) (h' : Lists heading' members advice plain)
    (hheading : Sheds heading heading') (hmembers : ∀ m ∈ members, escape ∉ m.toList)
    (hadvice : escape ∉ advice.toList) : Sheds colored plain := by
  cases h with
  | nothing hnil =>
    cases h' with
    | nothing => exact sheds_self List.not_mem_nil
    | listed hne => exact absurd hnil hne
  | listed hne =>
    cases h' with
    | nothing hnil => exact absurd hnil hne
    | listed =>
      refine Sheds.append (Sheds.append ?_ (sheds_self (escape_not_mem_join hmembers)))
        (sheds_self hadvice)
      exact hheading.append (sheds_self (by decide))

variable {r : Report}

theorem sheds_failuresText (h : r.EscapeFree) :
    Sheds (r.failuresText true) (r.failuresText false) := by
  refine (r.lists_failuresText true).sheds (r.lists_failuresText false) (sheds_paint ?_ _) ?_ ?_
  · exact escape_not_mem_append (escape_not_mem_append (by decide) (escape_not_mem_toString _))
      (by decide)
  · intro m hm
    obtain ⟨e, he, rfl⟩ := List.mem_map.mp hm
    exact escape_not_mem_append
      (escape_not_mem_line (escape_not_mem_trimEnd (h.diagnostics e he))) (by decide)
  · refine escape_not_mem_append (escape_not_mem_append (by decide) ?_) (by decide)
    exact escape_not_mem_line (escape_not_mem_append
      (escape_not_mem_append (by simp [escape]) h.allowList) (by decide))

theorem sheds_removalsText {s : OrderedSet ScriptPath} {heading : String}
    (hallow : escape ∉ r.allowList.toList) (hs : ∀ e ∈ s.toList, escape ∉ e.text.toList)
    (hheading : escape ∉ heading.toList) :
    Sheds (r.removalsText true heading s) (r.removalsText false heading s) := by
  refine (r.lists_removalsText true heading s).sheds (r.lists_removalsText false heading s)
    (sheds_paint ?_ _) ?_ ?_
  · exact escape_not_mem_append (escape_not_mem_append (by decide) (escape_not_mem_toString _))
      hheading
  · intro m hm
    obtain ⟨e, he, rfl⟩ := List.mem_map.mp hm
    exact escape_not_mem_line (escape_not_mem_append (by decide) (hs e he))
  · exact escape_not_mem_append (escape_not_mem_line (escape_not_mem_append
      (escape_not_mem_append (by decide) hallow) (by decide))) (by decide)

/-- **Without its codes, a coloured list of problems is the one without colours.** -/
theorem sheds_problemsText (h : r.EscapeFree) :
    Sheds (r.problemsText true) (r.problemsText false) :=
  ((sheds_failuresText h).append (sheds_removalsText h.allowList h.stalePasses (by decide))).append
    (sheds_removalsText h.allowList h.staleEntries (by decide))

theorem escape_not_mem_confirmation (h : r.EscapeFree) : escape ∉ r.confirmation.toList :=
  escape_not_mem_line (escape_not_mem_append (escape_not_mem_append
    (escape_not_mem_append (by decide) (escape_not_mem_toString _)) (by decide)) h.allowList)

/-! ### The two streams -/

theorem render_human_of_isClean (h : r.problems.isClean = true) (colored : Bool) :
    r.render .human colored = ⟨r.confirmation, ""⟩ := by
  have hverdict : r.verdict = .passed := if_pos h
  simp only [render, hverdict]

theorem render_human_of_not_isClean (h : r.problems.isClean = false) (colored : Bool) :
    r.render .human colored = ⟨"", r.problemsText colored⟩ := by
  have hverdict : r.verdict = .failed := if_neg (by rw [h]; exact Bool.false_ne_true)
  simp only [render, hverdict]

/-- On either stream, colours add codes and nothing else. -/
theorem withoutCodes_render (h : r.EscapeFree) :
    withoutCodes (r.render .human true).out = (r.render .human false).out ∧
      withoutCodes (r.render .human true).err = (r.render .human false).err := by
  have hempty : withoutCodes "" = "" := rfl
  cases hclean : r.problems.isClean with
  | true =>
    rw [render_human_of_isClean hclean, render_human_of_isClean hclean]
    exact ⟨(sheds_self (escape_not_mem_confirmation h)).withoutCodes_eq, hempty⟩
  | false =>
    rw [render_human_of_not_isClean hclean, render_human_of_not_isClean hclean]
    exact ⟨hempty, (sheds_problemsText h).withoutCodes_eq⟩

end Report

/-! ### Whole runs -/

/-- A machine that takes all that is printed. -/
def TakesPrints {σ : Type} (answer : (r : Request) → σ → r.Answer × σ) : Prop :=
  ∀ stream text s, (answer (.print stream text) s).1 = .ok ()

namespace Verify

/-- What a run finds, before anything is said of it. -/
def found (u : Surroundings) (o : VerifyOptions) : Action Report := do
  let root ← resolveRoot o.path
  let c ← loadConfig u o.config root
  examine u c root o.jobs

/-- A run that reports with or without colours. -/
def reporting (u : Surroundings) (o : VerifyOptions) (colored : Bool) : Action Verdict := do
  let report ← found u o
  (report.render o.format colored).write
  return report.verdict

/-- A run is one that reports without colours. -/
theorem reporting_false (u : Surroundings) (o : VerifyOptions) : reporting u o false = run u o := by
  simp only [reporting, found, run, LawfulMonad.bind_assoc]

variable {σ : Type} {answer : (r : Request) → σ → r.Answer × σ}

/-- **How a run ends is told by its problems**, unless the system refuses its report. -/
theorem run_reporting_fst (u : Surroundings) (o : VerifyOptions) (colored : Bool) (s : σ) :
    ((reporting u o colored).run.run answer s).1 =
        ((found u o).run.run answer s).1.map Report.verdict ∨
      ∃ r stream text s' e, ((found u o).run.run answer s).1 = .ok r ∧
        r.render o.format colored = .only stream text ∧
        (answer (.print stream text) s').1 = .error e ∧
        ((reporting u o colored).run.run answer s).1 = .error (.os e) := by
  have h : Ran answer (reporting u o colored).run s _ _ _ := ran_run (reporting u o colored).run s
  have hunique := fun {asked x s'} (hfound : Ran answer (found u o).run s asked x s') =>
    (hfound.unique (ran_run _ _)).2.1
  rcases Action.ran_bind_iff.mp h with ⟨f, hfound, he⟩ |
    ⟨first, r, s₁, rest, hfound, hreport, -⟩
  · rw [he, hunique hfound]
    exact Or.inl rfl
  obtain ⟨stream, text, hrendered, -, ⟨e, hrefused, he⟩ | ⟨-, he⟩⟩ :=
    Report.ran_write_verdict hreport
  · exact Or.inr
      ⟨r, stream, text, s₁, e, hunique hfound, hrendered, congrArg Prod.fst hrefused, he⟩
  · rw [he, hunique hfound]
    exact Or.inl rfl

/-- Where a report is not refused, the problems alone tell how a run ends. -/
theorem run_reporting_fst_of_takesPrints (h : TakesPrints answer) (u : Surroundings)
    (o : VerifyOptions) (colored : Bool) (s : σ) :
    ((reporting u o colored).run.run answer s).1 =
      ((found u o).run.run answer s).1.map Report.verdict := by
  refine (run_reporting_fst u o colored s).resolve_right ?_
  rintro ⟨r, stream, text, s', e, -, -, he, -⟩
  cases (h stream text s').symm.trans he

/-- A machine does not change the exit code. -/
theorem run_conclude_fst (x : Except Fault Verdict) (s s' : σ) :
    ((Gate.conclude x).run answer s).1 = ((Gate.conclude x).run answer s').1 := by
  cases x <;> rfl

end Verify

namespace Report

open Verify (reporting)

/-- **A report for people is complete.**  If there are no problems, the standard output confirms
it and the standard error is empty.  Else the standard output is empty, and the standard error
lists the failing scripts, the listed scripts that pass and the entries without a script.  In each
list their number comes first, then all of them in the order of their bytes; nothing is said of a
list without members.  If there are no codes in the texts, a report in colours is the one without
them but for its codes.  The run passes if there are no problems.  In either form and with or
without colours the run ends by what it found, unless the system refuses its report.  So on a
machine that takes what is printed it ends alike in all of them. -/
theorem human_complete (r : Report) :
    (r.problems.isClean = true ↔ r.problems.unexpectedFailures.entries = [] ∧
      r.problems.stalePasses.toList = [] ∧ r.problems.staleEntries.toList = []) ∧
    (∀ colored, r.problems.isClean = true → r.render .human colored =
      ⟨line ("✅ All " ++ toString r.checked ++
        " shell scripts pass ShellCheck or are listed in " ++ r.allowList), ""⟩) ∧
    (∀ colored, r.problems.isClean = false → ∃ failures passes entries,
      r.render .human colored = ⟨"", failures ++ passes ++ entries⟩ ∧
      Lists (paint colored .redBold ("❌ " ++
          toString r.problems.unexpectedFailures.entries.length ++ " script(s) fail ShellCheck:"))
        (r.problems.unexpectedFailures.entries.map fun e => line (trimEnd e.2) ++ line "")
        r.fixAdvice failures ∧
      Lists (paint colored .yellowBold ("⚠️  " ++ toString r.problems.stalePasses.toList.length ++
          " allow-listed script(s) now pass ShellCheck:"))
        (r.problems.stalePasses.toList.map fun e => line ("  " ++ e.text)) r.removalAdvice passes ∧
      Lists (paint colored .yellowBold ("⚠️  " ++ toString r.problems.staleEntries.toList.length ++
          " allow-list entr(ies) no longer exist:"))
        (r.problems.staleEntries.toList.map fun e => line ("  " ++ e.text)) r.removalAdvice
        entries) ∧
    (r.problems.unexpectedFailures.entries.map fun e => encode e.1.text.toList).Pairwise (· < ·) ∧
    (r.problems.stalePasses.toList.map fun s => encode s.text.toList).Pairwise (· < ·) ∧
    (r.problems.staleEntries.toList.map fun s => encode s.text.toList).Pairwise (· < ·) ∧
    (r.EscapeFree → withoutCodes (r.render .human true).out = (r.render .human false).out ∧
      withoutCodes (r.render .human true).err = (r.render .human false).err) ∧
    (r.verdict = if r.problems.isClean then .passed else .failed) ∧
    ∀ {σ : Type} (answer : (r : Request) → σ → r.Answer × σ) (s : σ) (u : Surroundings)
      (o : VerifyOptions) (format : Format) (colored : Bool),
      let p := reporting u { o with format := format } colored
      ((p.run.run answer s).1 = ((Verify.found u o).run.run answer s).1.map verdict ∨
        ∃ r stream text s' e, ((Verify.found u o).run.run answer s).1 = .ok r ∧
          r.render format colored = .only stream text ∧
          (answer (.print stream text) s').1 = .error e ∧ (p.run.run answer s).1 = .error (.os e)) ∧
      (TakesPrints answer → (p.run.run answer s).1 = ((Verify.run u o).run.run answer s).1 ∧
        ((p.run.bind Gate.conclude).run answer s).1 =
          (((Verify.run u o).run.bind Gate.conclude).run answer s).1) := by
  refine ⟨Problems.isClean_iff, fun colored h => render_human_of_isClean h colored,
    fun colored h => ⟨_, _, _, render_human_of_not_isClean h colored, r.lists_failuresText colored,
      r.lists_removalsText colored _ _, r.lists_removalsText colored _ _⟩,
    r.problems.unexpectedFailures.pairwise_encode, r.problems.stalePasses.pairwise_encode,
    r.problems.staleEntries.pairwise_encode, withoutCodes_render, rfl, ?_⟩
  intro σ answer s u o format colored
  have hfound : Verify.found u { o with format := format } = Verify.found u o := rfl
  refine ⟨hfound ▸ Verify.run_reporting_fst u { o with format := format } colored s, fun h => ?_⟩
  have hverdict : ((reporting u { o with format := format } colored).run.run answer s).1 =
      ((Verify.run u o).run.run answer s).1 := by
    rw [← Verify.reporting_false u o, Verify.run_reporting_fst_of_takesPrints h,
      Verify.run_reporting_fst_of_takesPrints h, hfound]
  refine ⟨hverdict, ?_⟩
  rw [Program.run_bind, Program.run_bind, hverdict]
  exact Verify.run_conclude_fst _ _ _

/-- A report with a problem of each kind. -/
def mixed : Report where
  problems :=
    { unexpectedFailures := .ofList [(⟨"x.sh"⟩, "In x.sh line 3:\n^-- SC2086\n")]
      stalePasses := .ofList [⟨"c.sh"⟩]
      staleEntries := .ofList [⟨"e.sh"⟩, ⟨"d.sh"⟩] }
  checked := 3
  allowList := "list"

theorem human_complete_mixed :
    mixed.problems.isClean = false ∧ mixed.EscapeFree ∧
    (mixed.render .human false).err =
      "❌ 1 script(s) fail ShellCheck:\nIn x.sh line 3:\n^-- SC2086\n\n" ++ mixed.fixAdvice ++
        "⚠️  1 allow-listed script(s) now pass ShellCheck:\n  c.sh\n" ++ mixed.removalAdvice ++
        "⚠️  2 allow-list entr(ies) no longer exist:\n  d.sh\n  e.sh\n" ++ mixed.removalAdvice ∧
    (mixed.render .human true).err ≠ (mixed.render .human false).err ∧
    withoutCodes (mixed.render .human true).err = (mixed.render .human false).err ∧
    TakesPrints Machine.answer ∧ ∀ m u o,
      ((reporting u { o with format := .json } true).run.run Machine.answer m).1 =
        ((Verify.run u o).run.run Machine.answer m).1 := by
  have hfree : mixed.EscapeFree := ⟨by decide, by decide, by decide, by decide⟩
  have htakes : TakesPrints Machine.answer := fun _ _ _ => rfl
  obtain ⟨-, -, -, -, -, -, hcodes, -, hends⟩ := human_complete mixed
  refine ⟨by decide, hfree, ?_, ?_, (hcodes hfree).2, htakes, fun m u o =>
    ((hends Machine.answer m u o .json true).2 htakes).1⟩
  · decide +kernel
  · decide +kernel

end Report
end LintGate
