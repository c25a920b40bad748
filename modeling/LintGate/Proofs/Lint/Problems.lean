import LintGate.Lint.Problems
import LintGate.Proofs.Text.Ordered

/-!
# Which scripts are problems

The problems of a run are collected script by script.  Here each of the three
collections is read as what it holds, whatever the order of the scripts and however
often one of them is found.

## Main results

* `get?_failures_classify`, `mem_stalePasses_classify`, `mem_staleEntries_classify` —
  which scripts are problems of each kind.
* `isClean_classify_iff` — when there are no problems.
-/

namespace LintGate

namespace Problems

variable (allowed : AllowList) (outcomes : Outcomes)

/-- The diagnostic of a script that fails and is not listed. -/
def failure? (s : ScriptPath) : Option String :=
  match outcomes.get? s, allowed.contains s with
  | some (.failed d), false => some d
  | _, _ => Option.none

/-- Whether a script is clean and listed. -/
def isStale (s : ScriptPath) : Bool :=
  outcomes.get? s == some .clean && allowed.contains s

variable {allowed outcomes}

theorem failure?_eq_some_iff {s : ScriptPath} {d : String} :
    failure? allowed outcomes s = some d ↔
      outcomes.get? s = some (.failed d) ∧ allowed.contains s = false := by
  unfold failure?
  split
  · next d' ho hl => rw [ho, hl]; simp
  · next h =>
    refine iff_of_false (by simp) ?_
    rintro ⟨ho, hl⟩
    exact h d ho hl

theorem isStale_iff {s : ScriptPath} :
    isStale allowed outcomes s = true ↔
      outcomes.get? s = some .clean ∧ allowed.contains s = true := by
  rw [isStale, Bool.and_eq_true, beq_iff_eq]

/-- What one script adds to the failures. -/
theorem get?_failures_record (p : Problems) (s t : ScriptPath) :
    (record allowed outcomes p s).unexpectedFailures.get? t =
      if t = s then (failure? allowed outcomes t).or (p.unexpectedFailures.get? t)
      else p.unexpectedFailures.get? t := by
  cases hf : failure? allowed outcomes s with
  | some d =>
    obtain ⟨ho, hl⟩ := failure?_eq_some_iff.mp hf
    have hrec : record allowed outcomes p s =
        { p with unexpectedFailures := p.unexpectedFailures.insert s d } := by
      simp [record, ho, hl]
    rw [hrec, OrderedMap.get?_insert]
    split
    · next h => rw [h, hf, Option.some_or]
    · rfl
  | none =>
    have hrec : (record allowed outcomes p s).unexpectedFailures = p.unexpectedFailures := by
      unfold record
      split
      · next d ho hl => rw [failure?_eq_some_iff.mpr ⟨ho, hl⟩] at hf; cases hf
      · rfl
      · rfl
    rw [hrec]
    split
    · next h => rw [h, hf, Option.none_or]
    · rfl

/-- What one script adds to the stale passes. -/
theorem mem_stalePasses_record (p : Problems) (s t : ScriptPath) :
    t ∈ (record allowed outcomes p s).stalePasses.toList ↔
      (t = s ∧ isStale allowed outcomes t = true) ∨ t ∈ p.stalePasses.toList := by
  rw [isStale_iff]
  unfold record
  split
  · next ho hl =>
    refine (or_iff_right ?_).symm
    rintro ⟨rfl, hc, -⟩
    simp [hc] at ho
  · next ho hl =>
    rw [OrderedSet.mem_insert]
    refine or_congr_left (and_iff_left_of_imp ?_).symm
    rintro rfl
    exact ⟨ho, hl⟩
  · next h =>
    refine (or_iff_right ?_).symm
    rintro ⟨rfl, hc, hl⟩
    exact h hc hl

variable (allowed outcomes)

/-- The failures after some scripts were looked at. -/
theorem get?_failures_foldl (found : List ScriptPath) (p : Problems) (t : ScriptPath) :
    (found.foldl (record allowed outcomes) p).unexpectedFailures.get? t =
      if t ∈ found then (failure? allowed outcomes t).or (p.unexpectedFailures.get? t)
      else p.unexpectedFailures.get? t := by
  induction found generalizing p with
  | nil => rfl
  | cons s found ih =>
    rw [List.foldl_cons, ih, get?_failures_record]
    by_cases hs : t = s
    · -- a script that is met twice adds the same diagnostic again
      simp [hs, Option.or_assoc.symm, Option.or_self]
    · simp [hs]

/-- The stale passes after some scripts were looked at. -/
theorem mem_stalePasses_foldl (found : List ScriptPath) (p : Problems) (t : ScriptPath) :
    t ∈ (found.foldl (record allowed outcomes) p).stalePasses.toList ↔
      (t ∈ found ∧ isStale allowed outcomes t = true) ∨ t ∈ p.stalePasses.toList := by
  induction found generalizing p with
  | nil => simp
  | cons s found ih =>
    rw [List.foldl_cons, ih, mem_stalePasses_record, List.mem_cons, or_and_right, or_assoc,
      or_left_comm]

end Problems

open Problems

variable (found : List ScriptPath) (allowed : AllowList) (outcomes : Outcomes)

/-- **The unexpected failures** are the scripts found that fail and are not listed. -/
theorem get?_failures_classify {s : ScriptPath} {d : String} :
    (classify found allowed outcomes).unexpectedFailures.get? s = some d ↔
      s ∈ found ∧ outcomes.get? s = some (.failed d) ∧ s ∉ allowed.entries.toList := by
  have hfold := get?_failures_foldl allowed outcomes found .none s
  have hnone : Problems.none.unexpectedFailures.get? s = Option.none := rfl
  rw [hnone, Option.or_none] at hfold
  have hlisted : allowed.contains s = false ↔ s ∉ allowed.entries.toList :=
    OrderedSet.contains_eq_false_iff
  show (found.foldl (record allowed outcomes) .none).unexpectedFailures.get? s = some d ↔ _
  rw [hfold, ← hlisted]
  by_cases hs : s ∈ found
  · rw [if_pos hs, failure?_eq_some_iff]
    exact (and_iff_right hs).symm
  · rw [if_neg hs]
    exact iff_of_false (by simp) fun h => hs h.1

/-- **The stale passes** are the scripts found that are clean and listed. -/
theorem mem_stalePasses_classify {s : ScriptPath} :
    s ∈ (classify found allowed outcomes).stalePasses.toList ↔
      s ∈ found ∧ outcomes.get? s = some .clean ∧ s ∈ allowed.entries.toList := by
  have hlisted : allowed.contains s = true ↔ s ∈ allowed.entries.toList :=
    OrderedSet.contains_iff_mem
  show s ∈ (found.foldl (record allowed outcomes) .none).stalePasses.toList ↔ _
  rw [mem_stalePasses_foldl, isStale_iff, hlisted]
  exact or_iff_left List.not_mem_nil

/-- **The stale entries** are the listed scripts that were not found. -/
theorem mem_staleEntries_classify {s : ScriptPath} :
    s ∈ (classify found allowed outcomes).staleEntries.toList ↔
      s ∈ allowed.entries.toList ∧ s ∉ found := by
  show s ∈ allowed.entries.toList.filter (fun e => !found.contains e) ↔ _
  simp

/-- There are no problems if every script found fails or is clean as the list has it,
and every listed script is found. -/
theorem isClean_classify_iff :
    (classify found allowed outcomes).isClean = true ↔
      (∀ s ∈ found, ∀ d, outcomes.get? s = some (.failed d) → s ∈ allowed.entries.toList) ∧
      (∀ s ∈ found, outcomes.get? s = some .clean → s ∉ allowed.entries.toList) ∧
      ∀ s ∈ allowed.entries.toList, s ∈ found := by
  simp only [Problems.isClean, Bool.and_eq_true, OrderedMap.isEmpty_iff, OrderedSet.isEmpty_iff,
    mem_stalePasses_classify, mem_staleEntries_classify, and_assoc]
  refine and_congr ⟨fun h s hs d hd => ?_, fun h s => ?_⟩
    (and_congr ⟨fun h s hs hc hl => ?_, fun h s hs => ?_⟩ ⟨fun h s hl => ?_, fun h s hs => ?_⟩)
  · by_contra hl
    have := (get?_failures_classify found allowed outcomes).mpr ⟨hs, hd, hl⟩
    rw [h s] at this
    cases this
  · rw [Option.eq_none_iff_forall_not_mem]
    intro d hd
    obtain ⟨hs, ho, hl⟩ := (get?_failures_classify found allowed outcomes).mp hd
    exact hl (h s hs d ho)
  · exact h s ⟨hs, hc, hl⟩
  · exact h s hs.1 hs.2.1 hs.2.2
  · by_contra hs
    exact h s ⟨hl, hs⟩
  · exact hs.2 (h s hs.1)

end LintGate
