import Mathlib.Data.List.Perm.Subperm
import LintGate.Proofs.Lint.Schedule
import LintGate.Proofs.Lint.Trace
import LintGate.Proofs.Program.Exchange

/-!
# Linting side by side

Several jobs lint on one machine.  Each job goes on request by request, and between two of its
requests the others may have theirs, so what is exchanged with the machine is some interleaving
of what the jobs exchange.  Each script that was linted still has a way through its own program,
and nothing is exchanged besides.  One job lints the scripts in turn.

## Main definitions

* `Job`, `Finding`, `Shift` — jobs at work, each with a record of what it exchanged.
* `Shift.Step`, `Shift.Run` — what can happen next, and any number of steps.
* `LintRun.Course` — what linting many scripts can ask and come to.
* `Findings` — what was found of the scripts that were linted.

## Main results

* `Shift.Sound.step`, `Shift.Sound.run` — a step, and so every run, keeps the records.
* `LintRun.course_lint` — the run of the program is one of the courses.
* `LintRun.Course.findings` — **every course is an interleaving of ways through the programs.**
* `LintRun.Course.exists_path` — a table has an outcome for each script.
-/

namespace LintGate

open Program

/-- A script that is being linted: what is left of the program that lints it, and what was
exchanged for it so far. -/
structure Job where
  script : ScriptPath
  rest : Program (Except Fault LintOutcome)
  past : List Exchange

/-- What was found of a script, and what was exchanged for it. -/
structure Finding where
  script : ScriptPath
  result : Except Fault LintOutcome
  past : List Exchange

/-- The results without the exchanges. -/
def Finding.results (ds : List Finding) : Results := ds.map fun d => (d.script, d.result)

/-- Several jobs at work: scripts that wait, scripts that are being linted, and what was
found. -/
structure Shift where
  waiting : List ScriptPath
  busy : List Job := []
  found : List Finding := []

section Perm

variable {α : Type} {l : List α} {i : Nat} {a : α}

theorem perm_cons_eraseIdx (h : l[i]? = some a) : l.Perm (a :: l.eraseIdx i) := by
  obtain ⟨hi, rfl⟩ := List.getElem?_eq_some_iff.mp h
  exact (List.getElem_cons_eraseIdx_perm hi).symm

theorem perm_set (h : l[i]? = some a) (b : α) : (l.set i b).Perm (b :: l.eraseIdx i) :=
  List.set_perm_cons_eraseIdx (List.getElem?_eq_some_iff.mp h).1 b

end Perm

variable {σ : Type} {answer : (r : Request) → σ → r.Answer × σ} {s s' : σ}
  {asked : List Request} {jobs : Nat} {lint : ScriptPath → Program (Except Fault LintOutcome)}
  {ss : List ScriptPath}

namespace Shift

/-- Whether the work is over: nothing is being linted, and nothing waits unless there was a
fault. -/
def IsOver (c : Shift) : Prop :=
  c.busy = [] ∧ (c.waiting = [] ∨ ∃ d ∈ c.found, d.result.isOk = false)

/-- What can happen next, and what is asked then: a waiting script is taken up, a job gets the
answer to one request, or a job is finished. -/
inductive Step (answer : (r : Request) → σ → r.Answer × σ) (jobs : Nat)
    (lint : ScriptPath → Program (Except Fault LintOutcome)) :
    Shift → σ → List Request → Shift → σ → Prop
  | take {c : Shift} {s : σ} {i : Nat} {x : ScriptPath} (hbusy : c.busy.length < jobs)
      (hx : c.waiting[i]? = some x) :
      Step answer jobs lint c s []
        ⟨c.waiting.eraseIdx i, c.busy ++ [⟨x, lint x, []⟩], c.found⟩ s
  | turn {c : Shift} {s : σ} {i : Nat} {x : ScriptPath} {r : Request}
      {next : r.Answer → Program (Except Fault LintOutcome)} {past : List Exchange}
      (hi : c.busy[i]? = some ⟨x, .ask r next, past⟩) :
      Step answer jobs lint c s [r]
        ⟨c.waiting, c.busy.set i ⟨x, next (answer r s).1, past ++ [⟨r, (answer r s).1⟩]⟩, c.found⟩
        (answer r s).2
  | finish {c : Shift} {s : σ} {i : Nat} {x : ScriptPath} {y : Except Fault LintOutcome}
      {past : List Exchange} (hi : c.busy[i]? = some ⟨x, .done y, past⟩) :
      Step answer jobs lint c s [] ⟨c.waiting, c.busy.eraseIdx i, c.found ++ [⟨x, y, past⟩]⟩ s

/-- Any number of steps. -/
inductive Run (answer : (r : Request) → σ → r.Answer × σ) (jobs : Nat)
    (lint : ScriptPath → Program (Except Fault LintOutcome)) :
    Shift → σ → List Request → Shift → σ → Prop
  | refl (c : Shift) (s : σ) : Run answer jobs lint c s [] c s
  | step {c c₁ c' : Shift} {s s₁ s' : σ} {first rest : List Request}
      (hstep : Step answer jobs lint c s first c₁ s₁)
      (hrest : Run answer jobs lint c₁ s₁ rest c' s') :
      Run answer jobs lint c s (first ++ rest) c' s'

/-- The invariant of every run: the scripts are spread over the shift, what was exchanged is
what the jobs recorded, and each record is a way through the program of its script. -/
structure Sound (lint : ScriptPath → Program (Except Fault LintOutcome)) (ss : List ScriptPath)
    (es : List Exchange) (c : Shift) : Prop where
  scripts : (c.waiting ++ (c.busy.map Job.script ++ c.found.map Finding.script)).Perm ss
  exchanged : es.Perm (c.busy.flatMap Job.past ++ c.found.flatMap Finding.past)
  /-- Whoever goes through what is left went through the whole program. -/
  busy : ∀ j ∈ c.busy, ∀ rest y, Path j.rest rest y → Path (lint j.script) (j.past ++ rest) y
  found : ∀ d ∈ c.found, Path (lint d.script) d.past d.result

variable {c c' : Shift} {es : List Exchange}

theorem sound_start : Sound lint ss [] ⟨ss, [], []⟩ where
  scripts := by simp
  exchanged := by simp
  busy := by simp
  found := by simp

/-- The script goes from those that wait to those that are being linted. -/
theorem Sound.take {i : Nat} {x : ScriptPath} (hc : c.Sound lint ss es)
    (hx : c.waiting[i]? = some x) :
    Sound lint ss es ⟨c.waiting.eraseIdx i, c.busy ++ [⟨x, lint x, []⟩], c.found⟩ := by
  refine ⟨List.Perm.trans ?_ hc.scripts, ?_, fun j hj => ?_, hc.found⟩
  · refine List.Perm.trans ?_ ((perm_cons_eraseIdx hx).append_right _).symm
    rw [List.map_append, List.map_singleton, List.append_assoc, List.singleton_append,
      ← List.append_assoc, List.cons_append, ← List.append_assoc]
    exact List.perm_middle
  · rw [List.flatMap_append, List.flatMap_singleton, List.append_nil]
    exact hc.exchanged
  · rcases List.mem_append.mp hj with hj | hj
    · exact hc.busy j hj
    · rw [List.mem_singleton.mp hj]
      exact fun rest y hrest => hrest

/-- The record of the job gets longer by what was exchanged. -/
theorem Sound.turn {i : Nat} {x : ScriptPath} {r : Request}
    {next : r.Answer → Program (Except Fault LintOutcome)} {past : List Exchange}
    (hc : c.Sound lint ss es) (hi : c.busy[i]? = some ⟨x, .ask r next, past⟩) (a : r.Answer) :
    Sound lint ss (es ++ [⟨r, a⟩])
      ⟨c.waiting, c.busy.set i ⟨x, next a, past ++ [⟨r, a⟩]⟩, c.found⟩ := by
  have hold := perm_cons_eraseIdx hi
  have hnew := perm_set hi ⟨x, next a, past ++ [⟨r, a⟩]⟩
  refine ⟨List.Perm.trans ?_ hc.scripts, ?_, fun j hj => ?_, hc.found⟩
  · refine List.Perm.append_left _ (List.Perm.append_right _ ?_)
    exact (hnew.map Job.script).trans (hold.map Job.script).symm
  · have hrecord := hnew.flatMap_right Job.past
    have hbefore := hc.exchanged.trans ((hold.flatMap_right Job.past).append_right _)
    refine List.Perm.trans ?_ (hrecord.append_right _).symm
    refine (hbefore.append_right _).trans ?_
    rw [List.flatMap_cons, List.flatMap_cons, List.append_assoc, List.append_assoc,
      List.append_assoc, List.append_assoc]
    refine List.Perm.append_left past ?_
    rw [← List.append_assoc]
    exact List.perm_append_comm
  · rcases List.mem_or_eq_of_mem_set hj with hj | rfl
    · exact hc.busy j hj
    · intro rest y hrest
      have hway := hc.busy _ (List.mem_of_getElem? hi) _ y (.ask a hrest)
      rw [List.append_assoc]
      exact hway

/-- The job becomes a finding with the same record. -/
theorem Sound.finish {i : Nat} {x : ScriptPath} {y : Except Fault LintOutcome}
    {past : List Exchange} (hc : c.Sound lint ss es)
    (hi : c.busy[i]? = some ⟨x, .done y, past⟩) :
    Sound lint ss es ⟨c.waiting, c.busy.eraseIdx i, c.found ++ [⟨x, y, past⟩]⟩ := by
  have hold := perm_cons_eraseIdx hi
  refine ⟨List.Perm.trans ?_ hc.scripts, ?_, fun j hj => ?_, fun d hd => ?_⟩
  · refine List.Perm.append_left _ ?_
    refine List.Perm.trans ?_ ((hold.map Job.script).append_right _).symm
    rw [List.map_append, List.map_singleton, ← List.append_assoc, List.map_cons,
      List.cons_append]
    exact List.perm_append_singleton x _
  · refine hc.exchanged.trans (((hold.flatMap_right Job.past).append_right _).trans ?_)
    rw [List.flatMap_append, List.flatMap_singleton, List.flatMap_cons, List.append_assoc,
      ← List.append_assoc _ _ past]
    exact List.perm_append_comm
  · exact hc.busy j (List.mem_of_mem_eraseIdx hj)
  · rcases List.mem_append.mp hd with hd | hd
    · exact hc.found d hd
    · rw [List.mem_singleton.mp hd]
      have hway := hc.busy _ (List.mem_of_getElem? hi) [] y (.done y)
      rwa [List.append_nil] at hway

/-- **A step keeps the records.** -/
theorem Sound.step (hc : c.Sound lint ss es) (h : Step answer jobs lint c s asked c' s') :
    c'.Sound lint ss (es ++ exchanges answer s asked) ∧ s' = afterwards answer s asked := by
  cases h with
  | take hroom hx =>
    rw [exchanges, List.append_nil]
    exact ⟨hc.take hx, rfl⟩
  | turn hi => exact ⟨hc.turn hi _, rfl⟩
  | finish hi =>
    rw [exchanges, List.append_nil]
    exact ⟨hc.finish hi, rfl⟩

/-- **Every run keeps the records.** -/
theorem Sound.run (hc : c.Sound lint ss es) (h : Run answer jobs lint c s asked c' s') :
    c'.Sound lint ss (es ++ exchanges answer s asked) ∧ s' = afterwards answer s asked := by
  induction h generalizing es with
  | refl c s =>
    rw [exchanges, List.append_nil]
    exact ⟨hc, rfl⟩
  | step hstep hrest ih =>
    obtain ⟨hsound, rfl⟩ := hc.step hstep
    rw [exchanges_append, afterwards_append, ← List.append_assoc]
    exact ih hsound

theorem Run.trans {c₁ : Shift} {s₁ : σ} {first rest : List Request}
    (h : Run answer jobs lint c s first c₁ s₁) (k : Run answer jobs lint c₁ s₁ rest c' s') :
    Run answer jobs lint c s (first ++ rest) c' s' := by
  induction h with
  | refl => exact k
  | step hstep _ ih =>
    rw [List.append_assoc]
    exact .step hstep (ih k)

/-- A job can have its turns one after another until its program is done. -/
theorem run_turns {p : Program (Except Fault LintOutcome)} {x : ScriptPath}
    {y : Except Fault LintOutcome} {past : List Exchange} {waiting : List ScriptPath}
    {found : List Finding} (h : Ran answer p s asked y s') :
    Run answer jobs lint ⟨waiting, [⟨x, p, past⟩], found⟩ s asked
      ⟨waiting, [⟨x, .done y, past ++ exchanges answer s asked⟩], found⟩ s' := by
  induction p generalizing s asked past with
  | done z =>
    obtain ⟨rfl, rfl, rfl⟩ := ran_done_iff.mp h
    rw [exchanges, List.append_nil]
    exact .refl _ _
  | ask r next ih =>
    obtain ⟨more, rfl, hmore⟩ := ran_ask_iff.mp h
    have hrest : Run answer jobs lint
        ⟨waiting, [⟨x, next (answer r s).1, past ++ [⟨r, (answer r s).1⟩]⟩], found⟩
        (answer r s).2 more
        ⟨waiting, [⟨x, .done y, (past ++ [⟨r, (answer r s).1⟩]) ++
          exchanges answer (answer r s).2 more⟩], found⟩ s' := ih _ hmore
    rw [List.append_assoc] at hrest
    show Run answer jobs lint _ s ([r] ++ more) _ s'
    exact .step (.turn (i := 0) rfl) hrest

/-- A waiting script can be taken up, linted and finished while nothing else is going on. -/
theorem run_one (found : List Finding) {x : ScriptPath} {y : Except Fault LintOutcome} {i : Nat}
    {waiting : List ScriptPath} (hjobs : 0 < jobs)
    (hx : waiting[i]? = some x) (h : Ran answer (lint x) s asked y s') :
    Run answer jobs lint ⟨waiting, [], found⟩ s asked
      ⟨waiting.eraseIdx i, [], found ++ [⟨x, y, exchanges answer s asked⟩]⟩ s' := by
  have hturns : Run answer jobs lint ⟨waiting.eraseIdx i, [⟨x, lint x, []⟩], found⟩ s asked
      ⟨waiting.eraseIdx i, [⟨x, .done y, [] ++ exchanges answer s asked⟩], found⟩ s' := run_turns h
  have hfinish : Run answer jobs lint
      ⟨waiting.eraseIdx i, [⟨x, .done y, exchanges answer s asked⟩], found⟩ s' []
      ⟨waiting.eraseIdx i, [], found ++ [⟨x, y, exchanges answer s asked⟩]⟩ s' :=
    .step (.finish (i := 0) rfl) (.refl _ _)
  have hrun := hturns.trans hfinish
  rw [List.append_nil, ← List.nil_append asked] at hrun
  rw [← List.nil_append asked]
  exact .step (.take hjobs hx) hrun

/-- So can all scripts, one after another in any order. -/
theorem run_oneByOne (found : List Finding) {ss' : List ScriptPath} {rs : Results}
    (hjobs : 0 < jobs) (hperm : ss'.Perm ss) (h : Ran answer (LintRun.all lint ss') s asked rs s') :
    ∃ found', Finding.results found' = Finding.results found ++ rs ∧
      Run answer jobs lint ⟨ss, [], found⟩ s asked ⟨[], [], found'⟩ s' := by
  induction ss' generalizing s asked rs found ss with
  | nil =>
    obtain rfl := hperm.nil_eq
    obtain ⟨rfl, rfl, rfl⟩ := ran_done_iff.mp h
    exact ⟨found, (List.append_nil _).symm, .refl _ _⟩
  | cons x ss' ih =>
    obtain ⟨first, y, s₁, rest, hx, hrest, rfl⟩ := ran_bind_iff.mp h
    obtain ⟨more, rs', s₂, last, hmore, hlast, rfl⟩ := ran_bind_iff.mp hrest
    obtain ⟨rfl, rfl, rfl⟩ := ran_done_iff.mp hlast
    obtain ⟨i, hi⟩ := List.getElem?_of_mem (hperm.mem_iff.mp List.mem_cons_self)
    have hleft : ss'.Perm (ss.eraseIdx i) := (hperm.trans (perm_cons_eraseIdx hi)).cons_inv
    obtain ⟨found', hresults, hrun⟩ :=
      ih (found ++ [⟨x, y, exchanges answer s first⟩]) hleft hmore
    rw [List.append_nil]
    refine ⟨found', ?_, (run_one found hjobs hi hx).trans hrun⟩
    rw [hresults, Finding.results, Finding.results, List.map_append, List.append_assoc]
    rfl

end Shift

/-! ### Courses -/

/-- What linting many scripts can ask and come to, and where the machine is then.  One job
lints them in turn; with several jobs, every run of a shift counts that comes to an end. -/
inductive LintRun.Course (answer : (r : Request) → σ → r.Answer × σ) (jobs : Nat)
    (lint : ScriptPath → Program (Except Fault LintOutcome)) (ss : List ScriptPath) (s : σ) :
    List Request → Except Fault Outcomes → σ → Prop
  | alone {asked : List Request} {rs : Results} {s' : σ} (h : jobs ≤ 1)
      (hran : Ran answer (inTurn lint ss) s asked rs s') :
      Course answer jobs lint ss s asked rs.collect s'
  | together {asked : List Request} {c : Shift} {r : Except Fault Outcomes} {s' : σ} (h : 1 < jobs)
      (hrun : Shift.Run answer jobs lint ⟨ss, [], []⟩ s asked c s') (hover : c.IsOver)
      (hr : (Finding.results c.found).ComesTo r) : Course answer jobs lint ss s asked r s'

namespace LintRun

variable {r : Except Fault Outcomes}

/-- With several jobs, the scripts one after another in any order are one of the courses. -/
theorem course_all {ss' : List ScriptPath} {rs : Results} (hjobs : 1 < jobs) (hperm : ss'.Perm ss)
    (h : Ran answer (all lint ss') s asked rs s') :
    Course answer jobs lint ss s asked rs.collect s' := by
  obtain ⟨found, hresults, hrun⟩ := Shift.run_oneByOne [] (Nat.lt_of_succ_lt hjobs) hperm h
  refine .together hjobs hrun ⟨rfl, Or.inl rfl⟩ ?_
  have hfound : Finding.results found = rs := hresults
  rw [hfound]
  exact Results.comesTo_collect rs

/-- **The run of the program is one of the courses.** -/
theorem course_lint (h : Ran answer (LintRun.lint jobs lint ss) s asked r s') :
    Course answer jobs lint ss s asked r s' := by
  rw [lint_eq_bind] at h
  obtain ⟨first, rs, s₁, rest, hrs, hcollect, rfl⟩ := ran_bind_iff.mp h
  obtain ⟨rfl, rfl, rfl⟩ := ran_done_iff.mp hcollect
  rw [List.append_nil]
  split at hrs
  · next hle => exact .alone hle hrs
  · next hgt => exact course_all (Nat.lt_of_not_le hgt) (List.Perm.refl ss) hrs

/-- Several jobs can end with the fault of any script. -/
theorem course_of_fault {x : ScriptPath} {f : Fault} (hjobs : 1 < jobs) (hx : x ∈ ss)
    (h : Ran answer (lint x) s asked (.error f) s') :
    Course answer jobs lint ss s asked (.error f) s' := by
  obtain ⟨i, hi⟩ := List.getElem?_of_mem hx
  have hrun := Shift.run_one [] (Nat.lt_of_succ_lt hjobs) hi h
  refine .together hjobs hrun ⟨rfl, Or.inr ⟨_, List.mem_singleton_self _, rfl⟩⟩ ?_
  exact .fault (s := x) List.mem_cons_self

end LintRun

/-! ### Findings -/

/-- What one job finds: it goes through the scripts up to the first that faults. -/
inductive Finding.InTurn : List ScriptPath → List Finding → Prop
  | nil : InTurn [] []
  | fault {x : ScriptPath} {ss : List ScriptPath} {f : Fault} {past : List Exchange} :
      InTurn (x :: ss) [⟨x, .error f, past⟩]
  | cons {x : ScriptPath} {ss : List ScriptPath} {o : LintOutcome} {past : List Exchange}
      {ds : List Finding} (h : InTurn ss ds) : InTurn (x :: ss) (⟨x, .ok o, past⟩ :: ds)

/-- What was found of the scripts that were linted, with what was exchanged and what it came
to. -/
structure Findings (jobs : Nat) (lint : ScriptPath → Program (Except Fault LintOutcome))
    (ss : List ScriptPath) (es : List Exchange) (r : Except Fault Outcomes) (ds : List Finding) :
    Prop where
  /-- Each script has a way through its program. -/
  paths : ∀ d ∈ ds, Path (lint d.script) d.past d.result
  /-- Nothing is exchanged besides. -/
  exchanged : es.Perm (ds.flatMap Finding.past)
  /-- No script is linted more often than it is listed. -/
  scripts : (ds.map Finding.script).Subperm ss
  /-- Without a fault every script is linted. -/
  complete : (∀ d ∈ ds, d.result.isOk = true) → (ds.map Finding.script).Perm ss
  comesTo : (Finding.results ds).ComesTo r
  inTurn : jobs ≤ 1 → Finding.InTurn ss ds ∧ es = ds.flatMap Finding.past ∧
    r = (Finding.results ds).collect

namespace Finding

variable {ds : List Finding}

/-- One job lints the first scripts of the list. -/
theorem InTurn.isPrefix (h : InTurn ss ds) : ds.map Finding.script <+: ss := by
  induction h with
  | nil => exact List.prefix_rfl
  | fault => exact ⟨_, rfl⟩
  | cons _ ih => exact List.cons_prefix_cons.mpr ⟨rfl, ih⟩

theorem InTurn.scripts_eq (h : InTurn ss ds) (hok : ∀ d ∈ ds, d.result.isOk = true) :
    ds.map Finding.script = ss := by
  induction h with
  | nil => rfl
  | fault => exact absurd (hok _ List.mem_cons_self) Bool.false_ne_true
  | cons _ ih =>
    rw [List.map_cons, ih fun d hd => hok d (List.mem_cons_of_mem _ hd)]

/-- What a run with one job found. -/
theorem exists_inTurn {rs : Results} (h : Ran answer (LintRun.inTurn lint ss) s asked rs s') :
    ∃ ds, InTurn ss ds ∧ results ds = rs ∧ (∀ d ∈ ds, Path (lint d.script) d.past d.result) ∧
      exchanges answer s asked = ds.flatMap Finding.past := by
  induction ss generalizing s asked rs with
  | nil =>
    obtain ⟨rfl, rfl, -⟩ := ran_done_iff.mp h
    exact ⟨[], .nil, rfl, by simp, rfl⟩
  | cons x ss ih =>
    obtain ⟨first, y, s₁, rest, hx, hrest, rfl⟩ := ran_bind_iff.mp h
    have hpath := hx.path
    obtain rfl := hx.afterwards_eq
    cases y with
    | error f =>
      obtain ⟨rfl, rfl, -⟩ := ran_done_iff.mp hrest
      refine ⟨[⟨x, .error f, exchanges answer s first⟩], .fault, rfl, ?_, ?_⟩
      · exact fun d hd => List.mem_singleton.mp hd ▸ hpath
      · rw [List.append_nil, List.flatMap_singleton]
    | ok o =>
      obtain ⟨more, rs', s₂, last, hmore, hlast, rfl⟩ := ran_bind_iff.mp hrest
      obtain ⟨rfl, rfl, rfl⟩ := ran_done_iff.mp hlast
      obtain ⟨ds, hturn, rfl, hpaths, hexchanged⟩ := ih hmore
      refine ⟨⟨x, .ok o, exchanges answer s first⟩ :: ds, .cons hturn, rfl, fun d hd => ?_, ?_⟩
      · rcases List.mem_cons.mp hd with rfl | hd
        · exact hpath
        · exact hpaths d hd
      · rw [List.append_nil, exchanges_append, hexchanged, List.flatMap_cons]

end Finding

/-- **Every course is an interleaving of ways through the programs** of the scripts that were
linted. -/
theorem LintRun.Course.findings {r : Except Fault Outcomes}
    (h : LintRun.Course answer jobs lint ss s asked r s') :
    ∃ ds, Findings jobs lint ss (exchanges answer s asked) r ds := by
  cases h with
  | alone hle hran =>
    obtain ⟨ds, hturn, rfl, hpaths, hexchanged⟩ := Finding.exists_inTurn hran
    refine ⟨ds, hpaths, ?_, hturn.isPrefix.sublist.subperm, fun hok => ?_,
      Results.comesTo_collect _, fun _ => ⟨hturn, hexchanged, rfl⟩⟩
    · rw [hexchanged]
    · rw [hturn.scripts_eq hok]
  | @together c _ _ hlt hrun hover hr =>
    obtain ⟨hsound, -⟩ := Shift.sound_start.run hrun
    obtain ⟨hidle, hend⟩ := hover
    have hscripts := hsound.scripts
    have hexchanged := hsound.exchanged
    rw [hidle] at hscripts hexchanged
    refine ⟨c.found, hsound.found, hexchanged, ?_, fun hok => ?_, hr,
      fun hle => absurd hlt (Nat.not_lt_of_le hle)⟩
    · exact (List.sublist_append_right _ _).subperm.trans hscripts.subperm
    · -- without a fault no script waits any longer
      rcases hend with hempty | ⟨d, hd, hfault⟩
      · rw [hempty] at hscripts
        exact hscripts
      · exact absurd (hok d hd) (by simp [hfault])

namespace LintRun.Course

variable {r : Except Fault Outcomes} {allowed : Request → Prop}

theorem afterwards_eq (h : LintRun.Course answer jobs lint ss s asked r s') :
    afterwards answer s asked = s' := by
  cases h with
  | alone hle hran => exact hran.afterwards_eq
  | together hlt hrun hover hr => exact (Shift.sound_start.run hrun).2.symm

/-- A course asks only what linting a script asks. -/
theorem forall_mem (h : LintRun.Course answer jobs lint ss s asked r s')
    (hp : ∀ x ∈ ss, (lint x).Asks allowed) : ∀ r ∈ asked, allowed r := by
  obtain ⟨ds, hds⟩ := h.findings
  intro q hq
  rw [← map_request_exchanges answer s asked] at hq
  obtain ⟨e, he, rfl⟩ := List.mem_map.mp hq
  obtain ⟨d, hd, hmem⟩ := List.mem_flatMap.mp (hds.exchanged.mem_iff.mp he)
  have hlisted : d.script ∈ ss := hds.scripts.subset (List.mem_map_of_mem hd)
  exact (hds.paths d hd).forall_mem (hp d.script hlisted) e hmem

end LintRun.Course

/-! ### Scripts with a fixed result -/

section Fixed

variable {f : ScriptPath → Except Fault LintOutcome} {ds : List Finding} {es : List Exchange}
  {r : Except Fault Outcomes}

theorem Finding.InTurn.results_eq (h : Finding.InTurn ss ds)
    (hfixed : ∀ d ∈ ds, d.result = f d.script) :
    Finding.results ds = LintRun.inTurn (m := Id) f ss := by
  induction h with
  | nil => rfl
  | @fault x ss fault past =>
    have hx : f x = .error fault := (hfixed _ List.mem_cons_self).symm
    rw [LintRun.inTurn_cons, hx]
    rfl
  | @cons x ss o past ds _ ih =>
    have hx : f x = .ok o := (hfixed _ List.mem_cons_self).symm
    rw [LintRun.inTurn_cons, hx, ← ih fun d hd => hfixed d (List.mem_cons_of_mem _ hd)]
    rfl

/-- Every right answer is one that several jobs can end with. -/
theorem LintRun.Ends.of_answers (hjobs : 1 < jobs) (h : LintRun.Answers f ss r) :
    LintRun.Ends jobs f ss r := by
  cases r with
  | ok t =>
    have hown : Ends jobs f ss (LintRun.lint (m := Id) jobs f ss) := ends_lint
    rw [h.eq_of_ok hown.answers] at hown
    exact hown
  | error fault =>
    -- the script that faults is taken up first
    obtain ⟨x, hx, hfault⟩ := h
    obtain ⟨i, hi⟩ := List.getElem?_of_mem hx
    have htake : (Crew.start ss).move? jobs f (.take i) = some ⟨ss.eraseIdx i, [x], []⟩ := by
      simp [Crew.move?, Crew.start, hi, Nat.lt_of_succ_lt hjobs]
    have hplay : (Crew.start ss).play jobs f [.take i, .finish 0] =
        some ⟨ss.eraseIdx i, [], [(x, f x)]⟩ := by
      rw [Crew.play, htake]
      rfl
    refine .together _ hjobs hplay ?_ (.fault (s := x) ?_)
    · rw [hfault]
      simp [Crew.isOver, Except.isOk, Except.toBool]
    · rw [hfault]
      exact List.mem_singleton_self _

/-- One job can end in one way only. -/
theorem LintRun.Ends.eq_of_le (h : LintRun.Ends jobs f ss r) (hjobs : jobs ≤ 1) :
    r = LintRun.lint (m := Id) jobs f ss := by
  cases h with
  | alone => rfl
  | together xs hlt => exact absurd hlt (Nat.not_lt_of_le hjobs)

/-- Where each script has a fixed result, a run ends as the order of its scripts allows. -/
theorem Findings.ends (h : Findings jobs lint ss es r ds)
    (hfixed : ∀ d ∈ ds, d.result = f d.script) : LintRun.Ends jobs f ss r := by
  rcases Nat.lt_or_ge 1 jobs with hjobs | hjobs
  · refine .of_answers hjobs
      (h.comesTo.answers (fun q hq => ?_) (fun q hq => ?_) fun hok x hx => ?_)
    · obtain ⟨d, hd, rfl⟩ := List.mem_map.mp hq
      exact hfixed d hd
    · obtain ⟨d, hd, rfl⟩ := List.mem_map.mp hq
      exact h.scripts.subset (List.mem_map_of_mem hd)
    · have hperm := h.complete fun d hd => hok _ (List.mem_map_of_mem hd)
      rw [Finding.results, List.map_map]
      exact hperm.mem_iff.mpr hx
  · obtain ⟨hturn, -, rfl⟩ := h.inTurn hjobs
    rw [hturn.results_eq hfixed, ← LintRun.lint_of_le hjobs]
    exact .alone hjobs

end Fixed
end LintGate
