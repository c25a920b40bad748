import LintGate.Proofs.Lint.Problems

/-!
# Every script has one place

Of the scripts found, each that has an outcome is an unexpected failure, a stale pass or
accepted, and only one of them.  What comes of a run does not depend on the order in which
the scripts are found, on how often, or on the outcomes of other scripts.

## Main definitions

* `Standing`, `Standing.Holds` — the places that a script can have.

## Main results

* `classify_congr` — what the problems of a run depend on.
* `classify_partition` — **the problems are a partition.**
-/

namespace LintGate

/-- The place of a script that has an outcome. -/
inductive Standing
  | unexpectedFailure
  | stalePass
  | accepted
  deriving DecidableEq, Repr

/-- Whether a script has a place: the problems tell the first two, and a script is accepted
if it fails and is listed, or is clean and is not. -/
def Standing.Holds (allowed : AllowList) (outcomes : Outcomes) (p : Problems) (s : ScriptPath) :
    Standing → Prop
  | .unexpectedFailure => s ∈ p.unexpectedFailures.keys
  | .stalePass => s ∈ p.stalePasses.toList
  | .accepted =>
    (∃ d, outcomes.get? s = some (.failed d)) ∧ allowed.contains s = true ∨
      outcomes.get? s = some .clean ∧ allowed.contains s = false

variable {found found' : List ScriptPath} {allowed : AllowList} {outcomes outcomes' : Outcomes}

theorem AllowList.contains_iff {s : ScriptPath} :
    allowed.contains s = true ↔ s ∈ allowed.entries.toList := OrderedSet.contains_iff_mem

theorem AllowList.contains_eq_false_iff {s : ScriptPath} :
    allowed.contains s = false ↔ s ∉ allowed.entries.toList := OrderedSet.contains_eq_false_iff

theorem mem_keys_failures_classify {s : ScriptPath} :
    s ∈ (classify found allowed outcomes).unexpectedFailures.keys ↔
      s ∈ found ∧ (∃ d, outcomes.get? s = some (.failed d)) ∧ s ∉ allowed.entries.toList := by
  rw [OrderedMap.mem_keys_iff]
  simp only [get?_failures_classify]
  constructor
  · rintro ⟨d, hs, ho, hl⟩
    exact ⟨hs, ⟨d, ho⟩, hl⟩
  · rintro ⟨hs, ⟨d, ho⟩, hl⟩
    exact ⟨d, hs, ho, hl⟩

/-- The problems depend on which scripts are found and on their outcomes. -/
theorem classify_congr (hfound : ∀ s, s ∈ found' ↔ s ∈ found)
    (houtcomes : ∀ s ∈ found, outcomes'.get? s = outcomes.get? s) :
    classify found' allowed outcomes' = classify found allowed outcomes := by
  have hfailures : (classify found' allowed outcomes').unexpectedFailures =
      (classify found allowed outcomes).unexpectedFailures := by
    refine OrderedMap.ext_get? fun s => Option.ext fun d => ?_
    rw [get?_failures_classify, get?_failures_classify, hfound]
    exact and_congr_right fun hs => by rw [houtcomes s hs]
  have hstale : (classify found' allowed outcomes').stalePasses =
      (classify found allowed outcomes).stalePasses := by
    refine OrderedSet.ext_mem fun s => ?_
    rw [mem_stalePasses_classify, mem_stalePasses_classify, hfound]
    exact and_congr_right fun hs => by rw [houtcomes s hs]
  have hentries : (classify found' allowed outcomes').staleEntries =
      (classify found allowed outcomes).staleEntries := by
    refine OrderedSet.ext_mem fun s => ?_
    rw [mem_staleEntries_classify, mem_staleEntries_classify, hfound]
  calc classify found' allowed outcomes'
      = ⟨(classify found' allowed outcomes').unexpectedFailures,
          (classify found' allowed outcomes').stalePasses,
          (classify found' allowed outcomes').staleEntries⟩ := rfl
    _ = classify found allowed outcomes := by rw [hfailures, hstale, hentries]

/-- A script found that has an outcome has one place and no other. -/
theorem existsUnique_standing {s : ScriptPath} (hs : s ∈ found) {o : LintOutcome}
    (ho : outcomes.get? s = some o) :
    ∃! k : Standing, k.Holds allowed outcomes (classify found allowed outcomes) s := by
  have hplaces : ∀ k : Standing,
      k.Holds allowed outcomes (classify found allowed outcomes) s ↔
        match k with
        | .unexpectedFailure => (∃ d, o = .failed d) ∧ s ∉ allowed.entries.toList
        | .stalePass => o = .clean ∧ s ∈ allowed.entries.toList
        | .accepted => (∃ d, o = .failed d) ∧ s ∈ allowed.entries.toList ∨
            o = .clean ∧ s ∉ allowed.entries.toList := by
    intro k
    cases k with
    | unexpectedFailure => simp [Standing.Holds, mem_keys_failures_classify, hs, ho]
    | stalePass => simp [Standing.Holds, mem_stalePasses_classify, hs, ho]
    | accepted =>
      simp [Standing.Holds, AllowList.contains_iff, AllowList.contains_eq_false_iff, ho]
  simp only [hplaces]
  -- the table has one row for each outcome and each answer of the list
  by_cases hl : s ∈ allowed.entries.toList
  · cases o with
    | clean => exact ⟨.stalePass, ⟨rfl, hl⟩, fun k hk => by cases k <;> simp_all⟩
    | failed d => exact ⟨.accepted, Or.inl ⟨⟨d, rfl⟩, hl⟩, fun k hk => by cases k <;> simp_all⟩
  · cases o with
    | clean => exact ⟨.accepted, Or.inr ⟨rfl, hl⟩, fun k hk => by cases k <;> simp_all⟩
    | failed d => exact ⟨.unexpectedFailure, ⟨⟨d, rfl⟩, hl⟩, fun k hk => by cases k <;> simp_all⟩

/-- **The problems are a partition.**  The unexpected failures, with their diagnostics, are
the scripts found that fail and are not listed; the stale passes are those that are clean
and listed; the stale entries are the listed scripts that are not found.  No script is in
two of these, and of the scripts found each that has an outcome is in one of the first two
or accepted.  Only which scripts are found counts, and of the outcomes only theirs. -/
theorem classify_partition (found : List ScriptPath) (allowed : AllowList) (outcomes : Outcomes) :
    (∀ s d, (classify found allowed outcomes).unexpectedFailures.get? s = some d ↔
      s ∈ found ∧ outcomes.get? s = some (.failed d) ∧ allowed.contains s = false) ∧
    (∀ s, s ∈ (classify found allowed outcomes).stalePasses.toList ↔
      s ∈ found ∧ outcomes.get? s = some .clean ∧ allowed.contains s = true) ∧
    (∀ s, s ∈ (classify found allowed outcomes).staleEntries.toList ↔
      allowed.contains s = true ∧ s ∉ found) ∧
    (classify found allowed outcomes).unexpectedFailures.keys.Disjoint
      (classify found allowed outcomes).stalePasses.toList ∧
    (classify found allowed outcomes).unexpectedFailures.keys.Disjoint
      (classify found allowed outcomes).staleEntries.toList ∧
    (classify found allowed outcomes).stalePasses.toList.Disjoint
      (classify found allowed outcomes).staleEntries.toList ∧
    (∀ s ∈ found, ∀ o, outcomes.get? s = some o →
      ∃! k : Standing, k.Holds allowed outcomes (classify found allowed outcomes) s) ∧
    ∀ found' outcomes', (∀ s, s ∈ found' ↔ s ∈ found) →
      (∀ s ∈ found, outcomes'.get? s = outcomes.get? s) →
      classify found' allowed outcomes' = classify found allowed outcomes := by
  simp only [AllowList.contains_iff, AllowList.contains_eq_false_iff]
  refine ⟨fun _ _ => get?_failures_classify .., fun _ => mem_stalePasses_classify ..,
    fun _ => mem_staleEntries_classify .., ?_, ?_, ?_,
    fun s hs o ho => existsUnique_standing hs ho, fun _ _ => classify_congr⟩
  · intro s hf hp
    exact (mem_keys_failures_classify.mp hf).2.2 ((mem_stalePasses_classify ..).mp hp).2.2
  · intro s hf he
    exact ((mem_staleEntries_classify ..).mp he).2 (mem_keys_failures_classify.mp hf).1
  · intro s hp he
    exact ((mem_staleEntries_classify ..).mp he).2 ((mem_stalePasses_classify ..).mp hp).1

/-- A script that fails, found twice, and one that is listed and clean; a third is listed and
not found, and a fourth has an outcome and is not found. -/
theorem classify_partition_repeated :
    (classify [⟨"b.sh"⟩, ⟨"a.sh"⟩, ⟨"b.sh"⟩] ⟨"list", .ofList [⟨"a.sh"⟩, ⟨"c.sh"⟩]⟩
      (.ofList [(⟨"a.sh"⟩, .clean), (⟨"b.sh"⟩, .failed "SC2086"), (⟨"d.sh"⟩, .clean)])) =
        classify [⟨"a.sh"⟩, ⟨"b.sh"⟩] ⟨"list", .ofList [⟨"a.sh"⟩, ⟨"c.sh"⟩]⟩
          (.ofList [(⟨"a.sh"⟩, .clean), (⟨"b.sh"⟩, .failed "SC2086")]) ∧
    (classify [⟨"a.sh"⟩, ⟨"b.sh"⟩] ⟨"list", .ofList [⟨"a.sh"⟩, ⟨"c.sh"⟩]⟩
      (.ofList [(⟨"a.sh"⟩, .clean), (⟨"b.sh"⟩, .failed "SC2086")])).unexpectedFailures.get?
        ⟨"b.sh"⟩ = some "SC2086" := by
  obtain ⟨hfailures, -, -, -, -, -, -, hcongr⟩ := classify_partition [⟨"a.sh"⟩, ⟨"b.sh"⟩]
    ⟨"list", .ofList [⟨"a.sh"⟩, ⟨"c.sh"⟩]⟩
    (.ofList [(⟨"a.sh"⟩, .clean), (⟨"b.sh"⟩, .failed "SC2086")])
  refine ⟨hcongr _ _ (fun s => ?_) (fun s hs => ?_), (hfailures _ _).mpr ⟨by simp, ?_, ?_⟩⟩
  · simp only [List.mem_cons, List.not_mem_nil, or_false]
    rw [or_left_comm, or_self]
  · rcases List.mem_cons.mp hs with rfl | hs
    · decide
    · obtain rfl := List.mem_singleton.mp hs
      decide
  · decide
  · decide

end LintGate
