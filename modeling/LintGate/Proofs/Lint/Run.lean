import LintGate.Lint.Run
import LintGate.Proofs.Text.Ordered

/-!
# What results come to

A linter that always answers with an outcome gives the table of these outcomes, with
one job or with several.  One that answers each script in a fixed way may fault on some of
them; then any of these faults is a right answer, and with one job the first of them ends
the run.

## Main definitions

* `LintRun.Answers` — the answers that are right for a list of scripts.
* `Results.ComesTo` — what results can come to, in whatever order they are put together.

## Main results

* `LintRun.lint_pure` — the outcomes of a linter that never faults.
* `LintRun.Answers.eq_of_ok` — a table that is right is the only right answer.
* `Results.ComesTo.answers` — what comes of results is a right answer.
* `LintRun.inTurn_cases` — which scripts are linted with one job.
-/

namespace LintGate

/-! ### Right answers -/

namespace LintRun

variable {lint : ScriptPath → Except Fault LintOutcome} {ss : List ScriptPath}

/-- Whether an answer is right for a linter and a list of scripts: it is the table of all
outcomes, and none of the scripts faults, or it is the fault of one of them. -/
def Answers (lint : ScriptPath → Except Fault LintOutcome) (ss : List ScriptPath) :
    Except Fault Outcomes → Prop
  | .ok t => (∀ s ∈ ss, ∃ o, lint s = .ok o) ∧
      ∀ s, t.get? s = if s ∈ ss then (lint s).toOption else none
  | .error f => ∃ s ∈ ss, lint s = .error f

theorem isOk_iff {x : Except Fault LintOutcome} : x.isOk = true ↔ ∃ o, x = .ok o := by
  cases x with
  | ok o => exact iff_of_true rfl ⟨o, rfl⟩
  | error f => exact iff_of_false Bool.false_ne_true (by simp)

/-- A table that is right is the only right answer. -/
theorem Answers.eq_of_ok {t : Outcomes} {x : Except Fault Outcomes} (ht : Answers lint ss (.ok t))
    (hx : Answers lint ss x) : x = .ok t := by
  cases x with
  | ok t' => exact congrArg Except.ok (OrderedMap.ext_get? fun s => by rw [hx.2, ht.2])
  | error f =>
    obtain ⟨s, hs, hf⟩ := hx
    obtain ⟨o, ho⟩ := ht.1 s hs
    exact absurd (hf.symm.trans ho) (by simp)

/-- There is a table exactly if no script faults. -/
theorem Answers.exists_ok_iff {x : Except Fault Outcomes} (hx : Answers lint ss x) :
    (∃ t, x = .ok t) ↔ ∀ s ∈ ss, ∃ o, lint s = .ok o := by
  cases x with
  | ok t => exact iff_of_true ⟨t, rfl⟩ hx.1
  | error f =>
    refine iff_of_false (by simp) fun h => ?_
    obtain ⟨s, hs, hf⟩ := hx
    obtain ⟨o, ho⟩ := h s hs
    exact absurd (hf.symm.trans ho) (by simp)

theorem Answers.get?_eq {t : Outcomes} {s : ScriptPath} {o : LintOutcome}
    (ht : Answers lint ss (.ok t)) (hs : s ∈ ss) (ho : lint s = .ok o) : t.get? s = some o := by
  rw [ht.2, if_pos hs, ho]
  rfl

theorem Answers.mem_keys_iff {t : Outcomes} {s : ScriptPath} (ht : Answers lint ss (.ok t)) :
    s ∈ t.keys ↔ s ∈ ss := by
  rw [OrderedMap.mem_keys_iff]
  constructor
  · rintro ⟨o, ho⟩
    by_contra hs
    rw [ht.2, if_neg hs] at ho
    exact absurd ho (by simp)
  · intro hs
    obtain ⟨o, ho⟩ := ht.1 s hs
    exact ⟨o, ht.get?_eq hs ho⟩

end LintRun

/-! ### Results -/

namespace Results

theorem pairs_eq_ok_iff {rs : Results} {es : List (ScriptPath × LintOutcome)} :
    rs.pairs = .ok es ↔ rs = es.map fun e => (e.1, .ok e.2) := by
  induction rs generalizing es with
  | nil => cases es <;> simp [pairs]
  | cons r rs ih =>
    obtain ⟨s, x⟩ := r
    cases x with
    | error f => cases es <;> simp [pairs]
    | ok o =>
      cases es with
      | nil => cases h : pairs rs <;> simp [pairs, h, Except.map]
      | cons e es =>
        rw [List.map_cons, List.cons.injEq, ← ih]
        cases h : pairs rs <;> simp [pairs, h, Except.map, Prod.ext_iff]

/-- A fault that results come to is the fault of one of them. -/
theorem exists_mem_of_pairs_eq_error {rs : Results} {f : Fault} (h : rs.pairs = .error f) :
    ∃ s, (s, .error f) ∈ rs := by
  induction rs with
  | nil => exact absurd h (by simp [pairs])
  | cons r rs ih =>
    obtain ⟨s, x⟩ := r
    cases x with
    | error g =>
      obtain rfl : g = f := by simpa [pairs] using h
      exact ⟨s, List.mem_cons_self⟩
    | ok o =>
      cases hrest : pairs rs with
      | ok es => exact absurd h (by simp [pairs, hrest, Except.map])
      | error g =>
        obtain rfl : g = f := by simpa [pairs, hrest, Except.map] using h
        obtain ⟨t, ht⟩ := ih hrest
        exact ⟨t, List.mem_cons_of_mem _ ht⟩

/-- What results come to, in whatever order they are put together: the table of all
outcomes, or any of the faults. -/
inductive ComesTo (rs : Results) : Except Fault Outcomes → Prop
  | table {rs' : Results} {es : List (ScriptPath × LintOutcome)} (hperm : rs'.Perm rs)
      (hes : rs'.pairs = .ok es) : ComesTo rs (.ok (.ofList es))
  | fault {s : ScriptPath} {f : Fault} (hf : (s, .error f) ∈ rs) : ComesTo rs (.error f)

/-- One way is to take the first fault. -/
theorem comesTo_collect (rs : Results) : rs.ComesTo rs.collect := by
  rw [collect]
  cases h : rs.pairs with
  | ok es => exact .table (List.Perm.refl rs) h
  | error f =>
    obtain ⟨s, hs⟩ := exists_mem_of_pairs_eq_error h
    exact .fault hs

/-- **What comes of results is a right answer**, if each is what the linter answers and,
unless there is a fault, there is one for each script. -/
theorem ComesTo.answers {lint : ScriptPath → Except Fault LintOutcome} {ss : List ScriptPath}
    {rs : Results} {x : Except Fault Outcomes} (h : rs.ComesTo x)
    (hfixed : ∀ r ∈ rs, r.2 = lint r.1) (hsub : ∀ r ∈ rs, r.1 ∈ ss)
    (hall : (∀ r ∈ rs, r.2.isOk = true) → ∀ s ∈ ss, s ∈ rs.map Prod.fst) :
    LintRun.Answers lint ss x := by
  cases h with
  | fault hf => exact ⟨_, hsub _ hf, (hfixed _ hf).symm⟩
  | @table rs' es hperm hes =>
    obtain rfl := pairs_eq_ok_iff.mp hes
    have hokay : ∀ r ∈ rs, r.2.isOk = true := fun r hr => by
      obtain ⟨e, -, rfl⟩ := List.mem_map.mp (hperm.mem_iff.mpr hr)
      rfl
    have hlint : ∀ e ∈ es, lint e.1 = .ok e.2 := fun e he =>
      (hfixed _ (hperm.mem_iff.mp (List.mem_map_of_mem he))).symm
    have hkeys : ∀ s, s ∈ es.map Prod.fst ↔ s ∈ ss := fun s => by
      have hsame : s ∈ es.map Prod.fst ↔ s ∈ rs.map Prod.fst := by
        rw [← (hperm.map Prod.fst).mem_iff, List.map_map]
        rfl
      rw [hsame]
      refine ⟨fun hs => ?_, hall hokay s⟩
      obtain ⟨r, hr, rfl⟩ := List.mem_map.mp hs
      exact hsub r hr
    refine ⟨fun s hs => ?_, fun s => ?_⟩
    · obtain ⟨e, he, rfl⟩ := List.mem_map.mp ((hkeys s).mpr hs)
      exact ⟨e.2, hlint e he⟩
    · have htable : ∀ e ∈ es, (lint e.1).toOption = some e.2 := fun e he => by
        rw [hlint e he]
        rfl
      rw [OrderedMap.get?_ofList (f := fun s => (lint s).toOption) htable,
        if_congr (hkeys s) rfl rfl]

/-- Results without a fault come to all their outcomes. -/
theorem collect_map_ok (f : ScriptPath → LintOutcome) (ss : List ScriptPath) :
    Results.collect (ss.map fun s => (s, .ok (f s))) =
      .ok (OrderedMap.ofList (ss.map fun s => (s, f s))) := by
  have hpairs : Results.pairs (ss.map fun s => (s, .ok (f s))) = .ok (ss.map fun s => (s, f s)) :=
    pairs_eq_ok_iff.mpr (by rw [List.map_map]; rfl)
  rw [collect, hpairs]
  rfl

/-- Outcomes in front of a fault do not count. -/
theorem collect_append_error {rs : Results} (h : ∀ r ∈ rs, r.2.isOk = true) (s : ScriptPath)
    (f : Fault) : Results.collect (rs ++ [(s, .error f)]) = .error f := by
  have hpairs : Results.pairs (rs ++ [(s, .error f)]) = .error f := by
    induction rs with
    | nil => rfl
    | cons r rs ih =>
      obtain ⟨t, x⟩ := r
      have hx : x.isOk = true := h (t, x) List.mem_cons_self
      cases x with
      | error g => exact absurd hx Bool.false_ne_true
      | ok o =>
        rw [List.cons_append, pairs, ih fun r hr => h r (List.mem_cons_of_mem _ hr)]
        rfl
  rw [collect, hpairs]
  rfl

end Results

/-! ### One job, and all scripts in turn -/

namespace LintRun

section Lawful

variable {m : Type → Type} [Monad m] [LawfulMonad m]

theorem inTurn_pure (f : ScriptPath → LintOutcome) (ss : List ScriptPath) :
    inTurn (fun s => (pure (.ok (f s)) : m (Except Fault LintOutcome))) ss =
      pure (ss.map fun s => (s, .ok (f s))) := by
  induction ss with
  | nil => rfl
  | cons s ss ih =>
    rw [inTurn, pure_bind]
    dsimp only
    rw [ih, pure_bind, List.map_cons]

theorem all_pure (f : ScriptPath → LintOutcome) (ss : List ScriptPath) :
    all (fun s => (pure (.ok (f s)) : m (Except Fault LintOutcome))) ss =
      pure (ss.map fun s => (s, .ok (f s))) := by
  induction ss with
  | nil => rfl
  | cons s ss ih =>
    rw [all, pure_bind, ih, pure_bind, List.map_cons]

/-- **The outcomes of a linter that never faults**, whatever the number of jobs. -/
theorem lint_pure (jobs : Nat) (f : ScriptPath → LintOutcome) (ss : List ScriptPath) :
    lint jobs (fun s => (pure (.ok (f s)) : m (Except Fault LintOutcome))) ss =
      pure (.ok (OrderedMap.ofList (ss.map fun s => (s, f s)))) := by
  unfold lint
  split
  · rw [inTurn_pure, pure_bind]
    exact congrArg pure (Results.collect_map_ok f ss)
  · rw [all_pure, pure_bind]
    exact congrArg pure (Results.collect_map_ok f ss)

end Lawful

section Fixed

variable (f : ScriptPath → Except Fault LintOutcome) (ss : List ScriptPath)

theorem inTurn_cons (s : ScriptPath) :
    inTurn (m := Id) f (s :: ss) =
      match f s with
      | .error fault => [(s, .error fault)]
      | .ok o => (s, .ok o) :: inTurn (m := Id) f ss := rfl

/-- **The scripts that are linted with one job**: all of them if none faults, and else those
up to the first that does. -/
theorem inTurn_cases :
    (∀ s ∈ ss, ∃ o, f s = .ok o) ∧ inTurn (m := Id) f ss = ss.map (fun s => (s, f s)) ∨
    ∃ before s after fault, ss = before ++ s :: after ∧ (∀ t ∈ before, ∃ o, f t = .ok o) ∧
      f s = .error fault ∧ inTurn (m := Id) f ss = (before ++ [s]).map fun s => (s, f s) := by
  induction ss with
  | nil => exact Or.inl ⟨by simp, rfl⟩
  | cons s ss ih =>
    cases hs : f s with
    | error fault =>
      refine Or.inr ⟨[], s, ss, fault, rfl, by simp, hs, ?_⟩
      rw [inTurn_cons, hs, List.nil_append, List.map_singleton, hs]
    | ok o =>
      have hstep : inTurn (m := Id) f (s :: ss) = (s, f s) :: inTurn (m := Id) f ss := by
        rw [inTurn_cons, hs]
      rw [hstep]
      rcases ih with ⟨hall, he⟩ | ⟨before, t, after, fault, rfl, hbefore, ht, he⟩
      · exact Or.inl ⟨List.forall_mem_cons.mpr ⟨⟨o, hs⟩, hall⟩, by rw [he]; rfl⟩
      · exact Or.inr ⟨s :: before, t, after, fault, rfl,
          List.forall_mem_cons.mpr ⟨⟨o, hs⟩, hbefore⟩, ht, by rw [he]; rfl⟩

theorem all_eq_map : all (m := Id) f ss = ss.map fun s => (s, f s) := by
  induction ss with
  | nil => rfl
  | cons s ss ih =>
    rw [List.map_cons, ← ih]
    rfl

end Fixed

end LintRun
end LintGate
