import Mathlib.Data.List.Perm.Basic
import LintGate.Judgement
import LintGate.Proofs.Lint.Run

/-!
# Linting in any order

Several jobs take scripts up and finish them in any order.  Every order comes to an end, and
what it comes to is a right answer, so the table of the outcomes does not depend on the order
or on the number of jobs.  If scripts fault, the answer is the fault of one of them; with one
job this is the first.

## Main definitions

* `Crew.Sound` — the invariant of every order.
* `LintRun.Ends` — the answers that a run with a number of jobs can end with.
* `LintRun.logged` — a linter that writes down the scripts it is called for.

## Main results

* `Crew.Sound.move`, `Crew.Sound.play` — a move, and so every order, keeps the invariant.
* `Crew.exists_move` — work that is not over can go on.
* `LintRun.Ends.answers` — a run ends with a right answer.
* `LintRun.schedule_independent` — **what a run ends with does not depend on the order.**
-/

namespace LintGate
namespace Crew

variable {jobs : Nat} {f : ScriptPath → Except Fault LintOutcome} {ss : List ScriptPath}
  {c c' : Crew} {x : Move}

/-- How many moves are left at most: a script that waits is taken up and finished. -/
def left (c : Crew) : Nat := 2 * c.waiting.length + c.busy.length

/-- The invariant of every order: the scripts are spread over the crew, and each result is
what the linter answers. -/
structure Sound (f : ScriptPath → Except Fault LintOutcome) (ss : List ScriptPath) (c : Crew) :
    Prop where
  scripts : (c.waiting ++ (c.busy ++ c.found.map Prod.fst)).Perm ss
  fixed : ∀ r ∈ c.found, r.2 = f r.1

theorem sound_start : (start ss).Sound f ss where
  scripts := by simp [start]
  fixed := by simp [start]

/-- All that a move can do. -/
theorem move?_cases (h : c.move? jobs f x = some c') :
    (∃ i s, x = .take i ∧ c.busy.length < jobs ∧ c.waiting[i]? = some s ∧
      c' = { c with waiting := c.waiting.eraseIdx i, busy := c.busy ++ [s] }) ∨
    ∃ i s, x = .finish i ∧ c.busy[i]? = some s ∧
      c' = { c with busy := c.busy.eraseIdx i, found := c.found ++ [(s, f s)] } := by
  cases x with
  | take i =>
    simp only [move?] at h
    split at h
    · next hbusy =>
      obtain ⟨s, hs, rfl⟩ := Option.map_eq_some_iff.mp h
      exact Or.inl ⟨i, s, rfl, hbusy, hs, rfl⟩
    · exact absurd h (by simp)
  | finish i =>
    obtain ⟨s, hs, rfl⟩ := Option.map_eq_some_iff.mp h
    exact Or.inr ⟨i, s, rfl, hs, rfl⟩

theorem perm_of_getElem? {l : List ScriptPath} {i : Nat} {s : ScriptPath} (h : l[i]? = some s) :
    (s :: l.eraseIdx i).Perm l := by
  obtain ⟨hi, rfl⟩ := List.getElem?_eq_some_iff.mp h
  exact List.getElem_cons_eraseIdx_perm hi

/-- **A move keeps the invariant.** -/
theorem Sound.move (hc : c.Sound f ss) (h : c.move? jobs f x = some c') : c'.Sound f ss := by
  rcases move?_cases h with ⟨i, s, -, -, hs, rfl⟩ | ⟨i, s, -, hs, rfl⟩
  · refine ⟨List.Perm.trans ?_ hc.scripts, hc.fixed⟩
    -- the script goes from those that wait to those that are being linted
    have hwaiting := (perm_of_getElem? hs).append_right (c.busy ++ c.found.map Prod.fst)
    refine List.Perm.trans ?_ hwaiting
    dsimp only
    rw [List.append_assoc, List.singleton_append, ← List.append_assoc, ← List.append_assoc,
      List.cons_append, List.cons_append]
    exact List.perm_middle
  · refine ⟨List.Perm.trans ?_ hc.scripts, fun r hr => ?_⟩
    · refine List.Perm.append_left c.waiting ?_
      refine List.Perm.trans ?_ ((perm_of_getElem? hs).append_right (c.found.map Prod.fst))
      dsimp only
      rw [List.map_append, List.map_singleton, ← List.append_assoc, List.cons_append]
      exact List.perm_append_singleton s _
    · rcases List.mem_append.mp hr with hr | hr
      · exact hc.fixed r hr
      · rw [List.mem_singleton.mp hr]

/-- A move leaves one move less. -/
theorem left_move (h : c.move? jobs f x = some c') : c'.left + 1 = c.left := by
  rcases move?_cases h with ⟨i, s, -, -, hs, rfl⟩ | ⟨i, s, -, hs, rfl⟩
  · have hlen := (perm_of_getElem? hs).length_eq
    simp only [List.length_cons] at hlen
    simp only [left, List.length_append, List.length_singleton]
    omega
  · have hlen := (perm_of_getElem? hs).length_eq
    simp only [List.length_cons] at hlen
    simp only [left]
    omega

/-- **Every order keeps the invariant**, and it has an end. -/
theorem Sound.play {xs : List Move} (hc : c.Sound f ss) (h : c.play jobs f xs = some c') :
    c'.Sound f ss ∧ xs.length + c'.left = c.left := by
  induction xs generalizing c with
  | nil =>
    obtain rfl := Option.some.inj h
    exact ⟨hc, Nat.zero_add _⟩
  | cons x xs ih =>
    obtain ⟨c₁, hmove, hrest⟩ := Option.bind_eq_some_iff.mp h
    obtain ⟨hsound, hleft⟩ := ih (hc.move hmove) hrest
    refine ⟨hsound, ?_⟩
    have hone := left_move hmove
    rw [List.length_cons]
    omega

/-- **Work that is not over can go on.** -/
theorem exists_move (hjobs : 0 < jobs) (h : c.isOver = false) :
    ∃ x, (c.move? jobs f x).isSome = true := by
  obtain ⟨waiting, busy, found⟩ := c
  cases busy with
  | cons s busy => exact ⟨.finish 0, rfl⟩
  | nil =>
    cases waiting with
    | cons s waiting => exact ⟨.take 0, by simp [move?, hjobs]⟩
    | nil => exact absurd h (by simp [isOver])

/-- Work that is over comes to a right answer. -/
theorem Sound.answers {r : Except Fault Outcomes} (hc : c.Sound f ss) (hover : c.isOver = true)
    (hr : c.found.ComesTo r) : LintRun.Answers f ss r := by
  obtain ⟨hbusy, hend⟩ := Bool.and_eq_true_iff.mp hover
  have hidle : c.busy = [] := List.isEmpty_iff.mp hbusy
  have hscripts := hc.scripts
  rw [hidle, List.nil_append] at hscripts
  refine hr.answers hc.fixed (fun r hr => ?_) fun hokay s hs => ?_
  · exact hscripts.mem_iff.mp (List.mem_append_right _ (List.mem_map_of_mem hr))
  · -- without a fault no script waits any longer
    have hnone : (c.found.any fun r => !r.2.isOk) = false := by
      rw [List.any_eq_false]
      intro r hr
      simp [hokay r hr]
    rw [hnone, Bool.or_false, List.isEmpty_iff] at hend
    rw [hend, List.nil_append] at hscripts
    exact hscripts.mem_iff.mpr hs

/-! ### The scripts one after another -/

/-- The moves of a crew that takes up and finishes one script after another. -/
def oneByOne : Nat → List Move
  | 0 => []
  | n + 1 => .take 0 :: .finish 0 :: oneByOne n

theorem play_oneByOne (hjobs : 0 < jobs) (found : Results) :
    play jobs f ⟨ss, [], found⟩ (oneByOne ss.length) =
      some ⟨[], [], found ++ ss.map fun s => (s, f s)⟩ := by
  induction ss generalizing found with
  | nil => simp [oneByOne, play]
  | cons s ss ih =>
    have hstep : play jobs f ⟨s :: ss, [], found⟩ (oneByOne (ss.length + 1)) =
        play jobs f ⟨ss, [], found ++ [(s, f s)]⟩ (oneByOne ss.length) := by
      simp [oneByOne, play, move?, hjobs]
    rw [List.length_cons, hstep, ih, List.map_cons, List.append_assoc, List.singleton_append]

end Crew

namespace LintRun

variable {jobs : Nat} {f : ScriptPath → Except Fault LintOutcome} {ss : List ScriptPath}
  {r : Except Fault Outcomes}

/-- What a run with a number of jobs can end with.  With one job the scripts are linted in
turn; with several, every order that comes to an end counts. -/
inductive Ends (jobs : Nat) (f : ScriptPath → Except Fault LintOutcome) (ss : List ScriptPath) :
    Except Fault Outcomes → Prop
  | alone (h : jobs ≤ 1) : Ends jobs f ss (lint (m := Id) jobs f ss)
  | together (xs : List Crew.Move) {c : Crew} {r : Except Fault Outcomes} (h : 1 < jobs)
      (hplay : (Crew.start ss).play jobs f xs = some c) (hover : c.isOver = true)
      (hr : c.found.ComesTo r) : Ends jobs f ss r

theorem lint_of_le (h : jobs ≤ 1) :
    lint (m := Id) jobs f ss = Results.collect (inTurn (m := Id) f ss) := by
  unfold lint
  rw [if_pos h]
  rfl

theorem lint_of_lt (h : 1 < jobs) :
    lint (m := Id) jobs f ss = Results.collect (ss.map fun s => (s, f s)) := by
  unfold lint
  rw [if_neg (Nat.not_le_of_lt h), all_eq_map]
  rfl

/-- The run itself is one of the orders. -/
theorem ends_lint : Ends jobs f ss (lint (m := Id) jobs f ss) := by
  rcases Nat.lt_or_ge 1 jobs with h | h
  · have hplay : (Crew.start ss).play jobs f (Crew.oneByOne ss.length) =
        some ⟨[], [], [] ++ ss.map fun s => (s, f s)⟩ :=
      Crew.play_oneByOne (Nat.lt_of_succ_lt h) []
    rw [List.nil_append] at hplay
    rw [lint_of_lt h]
    exact .together _ h hplay rfl (Results.comesTo_collect _)
  · exact .alone h

/-- The fault of a script behind others that do not fault. -/
theorem collect_map_error {before : List ScriptPath} {s : ScriptPath} {fault : Fault}
    (hbefore : ∀ t ∈ before, ∃ o, f t = .ok o) (hs : f s = .error fault) :
    Results.collect ((before ++ [s]).map fun s => (s, f s)) = .error fault := by
  have hokay : ∀ r ∈ before.map fun t => (t, f t), r.2.isOk = true :=
    List.forall_mem_map.mpr fun t ht => isOk_iff.mpr (hbefore t ht)
  rw [List.map_append, List.map_singleton, hs, Results.collect_append_error hokay]

/-- With one job the answer is the table, or the fault that comes first. -/
theorem answers_collect_inTurn : Answers f ss (Results.collect (inTurn (m := Id) f ss)) := by
  rcases inTurn_cases f ss with ⟨-, he⟩ | ⟨before, s, after, fault, rfl, hbefore, hs, he⟩
  · rw [he]
    exact (Results.comesTo_collect _).answers (by simp) (by simp) (by simp)
  · rw [he, collect_map_error hbefore hs]
    exact ⟨s, by simp, hs⟩

/-- **A run ends with a right answer.** -/
theorem Ends.answers (h : Ends jobs f ss r) : Answers f ss r := by
  cases h with
  | alone h =>
    rw [lint_of_le h]
    exact answers_collect_inTurn
  | together xs h hplay hover hr => exact (Crew.sound_start.play hplay).1.answers hover hr

/-- A linter that writes down the scripts it is called for. -/
def logged (f : ScriptPath → Except Fault LintOutcome) (s : ScriptPath) :
    StateM (List ScriptPath) (Except Fault LintOutcome) := do
  modify (· ++ [s])
  return f s

theorem inTurn_logged (calls : List ScriptPath) :
    (inTurn (logged f) ss).run calls =
      (inTurn (m := Id) f ss, calls ++ (inTurn (m := Id) f ss).map Prod.fst) := by
  induction ss generalizing calls with
  | nil => exact congrArg (Prod.mk []) (List.append_nil calls).symm
  | cons s ss ih =>
    cases hs : f s with
    | error fault =>
      have hrun : (inTurn (logged f) (s :: ss)).run calls =
          ([(s, .error fault)], calls ++ [s]) := by
        simp [inTurn, logged, hs]
        rfl
      rw [hrun, inTurn_cons, hs]
      rfl
    | ok o =>
      have hrun : (inTurn (logged f) (s :: ss)).run calls =
          ((s, .ok o) :: ((inTurn (logged f) ss).run (calls ++ [s])).1,
            ((inTurn (logged f) ss).run (calls ++ [s])).2) := by
        simp [inTurn, logged, hs]
        rfl
      rw [hrun, ih, inTurn_cons, hs]
      dsimp only
      rw [List.map_cons, List.append_assoc, List.singleton_append]

theorem lint_logged (h : jobs ≤ 1) :
    (lint jobs (logged f) ss).run [] =
      (lint (m := Id) jobs f ss, (inTurn (m := Id) f ss).map Prod.fst) := by
  have hrun : (lint jobs (logged f) ss).run [] =
      (Results.collect ((inTurn (logged f) ss).run []).1, ((inTurn (logged f) ss).run []).2) := by
    unfold lint
    rw [if_pos h]
    rfl
  rw [hrun, inTurn_logged, lint_of_le h, List.nil_append]

/-- **What a run ends with does not depend on the order.**  The linter answers each script in
a fixed way.  Every order in which several jobs take up and finish the scripts comes to an
end, and the run itself is one of them.  A run ends with a table exactly if no script faults,
and then the keys are the scripts, each with its outcome, so that with any number of jobs the
table, the problems and what is reported are the same; else it ends with the fault of one of
the scripts.  With one job the scripts are linted in turn up to the first that faults, and its
fault is the answer. -/
theorem schedule_independent (f : ScriptPath → Except Fault LintOutcome) (ss : List ScriptPath) :
    (∀ jobs, 1 < jobs → ∀ xs c, (Crew.start ss).play jobs f xs = some c →
      xs.length ≤ 2 * ss.length ∧
      (c.isOver = false → ∃ x, (c.move? jobs f x).isSome = true)) ∧
    (∀ jobs, Ends jobs f ss (lint (m := Id) jobs f ss)) ∧
    (∀ jobs r, Ends jobs f ss r →
      ((∃ t, r = .ok t) ↔ ∀ s ∈ ss, ∃ o, f s = .ok o) ∧
      (∀ t, r = .ok t → (∀ s, s ∈ t.keys ↔ s ∈ ss) ∧ ∀ s ∈ ss, ∀ o, f s = .ok o →
        t.get? s = some o) ∧
      ∀ fault, r = .error fault → ∃ s ∈ ss, f s = .error fault) ∧
    (∀ jobs jobs' t r, Ends jobs f ss (.ok t) → Ends jobs' f ss r → ∃ t', r = .ok t' ∧ t' = t ∧
      ∀ allowed name, (Report.ofOutcomes ss allowed t' name).problems =
          (Report.ofOutcomes ss allowed t name).problems ∧
        ∀ format colored, (Report.ofOutcomes ss allowed t' name).render format colored =
          (Report.ofOutcomes ss allowed t name).render format colored) ∧
    ∀ jobs ≤ 1, ∃ calls,
      (lint jobs (logged f) ss).run [] = (lint (m := Id) jobs f ss, calls) ∧
      ((∀ s ∈ ss, ∃ o, f s = .ok o) ∧ calls = ss ∨
        ∃ before s after fault, ss = before ++ s :: after ∧
          (∀ t ∈ before, ∃ o, f t = .ok o) ∧ f s = .error fault ∧
          calls = before ++ [s] ∧ lint (m := Id) jobs f ss = .error fault) := by
  refine ⟨fun jobs hjobs xs c hplay => ⟨?_, ?_⟩, fun _ => ends_lint, fun jobs r hr => ?_,
    fun jobs jobs' t r ht hr => ?_, fun jobs hjobs => ?_⟩
  · have hlen := (Crew.sound_start.play hplay).2
    simp only [Crew.left, Crew.start, List.length_nil] at hlen
    omega
  · exact Crew.exists_move (Nat.lt_of_succ_lt hjobs)
  · have hanswer := hr.answers
    refine ⟨hanswer.exists_ok_iff, ?_, ?_⟩
    · rintro t rfl
      exact ⟨fun s => hanswer.mem_keys_iff, fun s hs o ho => hanswer.get?_eq hs ho⟩
    · rintro fault rfl
      exact hanswer
  · obtain rfl := ht.answers.eq_of_ok hr.answers
    exact ⟨t, rfl, rfl, fun _ _ => ⟨rfl, fun _ _ => rfl⟩⟩
  · refine ⟨_, lint_logged hjobs, ?_⟩
    have hcalls : ∀ l : List ScriptPath, (l.map fun s => (s, f s)).map Prod.fst = l := fun l => by
      rw [List.map_map]
      exact List.map_id l
    rw [lint_of_le hjobs]
    rcases inTurn_cases f ss with ⟨hall, he⟩ | ⟨before, s, after, fault, hss, hbefore, hs, he⟩
    · rw [he, hcalls]
      exact Or.inl ⟨hall, rfl⟩
    · rw [he, hcalls, collect_map_error hbefore hs]
      exact Or.inr ⟨before, s, after, fault, hss, hbefore, hs, rfl, rfl⟩

/-- A linter that cannot be run on one script. -/
def deniedOn (bad s : ScriptPath) : Except Fault LintOutcome :=
  if s = bad then .error (.os .denied) else .ok .clean

/-- Two jobs on three scripts, the second of which faults: it is taken up first, and the last
is not linted any more. -/
theorem schedule_independent_denied :
    Ends 2 (deniedOn ⟨"b.sh"⟩) [⟨"a.sh"⟩, ⟨"b.sh"⟩, ⟨"a.sh"⟩] (.error (.os .denied)) ∧
    ∀ jobs r, Ends jobs (deniedOn ⟨"b.sh"⟩) [⟨"a.sh"⟩, ⟨"b.sh"⟩, ⟨"a.sh"⟩] r →
      r = .error (.os .denied) := by
  obtain ⟨-, -, hends, -⟩ :=
    schedule_independent (deniedOn ⟨"b.sh"⟩) [⟨"a.sh"⟩, ⟨"b.sh"⟩, ⟨"a.sh"⟩]
  refine ⟨?_, fun jobs r hr => ?_⟩
  · exact .together [.take 1, .take 0, .finish 0, .finish 0] (by decide) rfl rfl
      (.fault (s := ⟨"b.sh"⟩) List.mem_cons_self)
  · obtain ⟨hok, -, hfault⟩ := hends jobs r hr
    cases r with
    | ok t =>
      obtain ⟨o, ho⟩ := hok.mp ⟨t, rfl⟩ ⟨"b.sh"⟩ (by simp)
      exact absurd ho (by simp [deniedOn])
    | error fault =>
      obtain ⟨s, -, hs⟩ := hfault fault rfl
      unfold deniedOn at hs
      split at hs
      · exact congrArg Except.error (Except.error.inj hs).symm
      · exact absurd hs (by simp)

end LintRun
end LintGate
