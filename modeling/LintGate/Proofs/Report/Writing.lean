import LintGate.Proofs.Program.Trace
import LintGate.Verify

/-!
# Writing a report

A report goes to one of the two streams, and there is always something to write.  So writing it
takes one request, and the system takes all of it or refuses it.

## Main definitions

* `Streams.only` — a text on one stream.

## Main results

* `Report.exists_render_eq` — a report is a text on one stream.
* `Report.ran_write` — **writing a report is one request**, which may be refused.
* `Report.ran_write_verdict` — how a run ends that ends with its report.
-/

namespace LintGate

open Program

/-- A text on one stream, and nothing on the other. -/
def Streams.only : Stream → String → Streams
  | .out, text => ⟨text, ""⟩
  | .err, text => ⟨"", text⟩

/-- To write a text on one stream is one request. -/
theorem Streams.write_only {text : String} (h : text ≠ "") (stream : Stream) :
    (only stream text).write = Action.trial (.send (.print stream text)) .os := by
  have hempty (stream : Stream) :
      Action.trial (Program.print stream "") .os = (pure () : Action Unit) := rfl
  have hprint : Program.print stream text = .send (.print stream text) := if_neg h
  -- nothing is asked for the empty one of the two streams
  cases stream with
  | out =>
    show Action.trial (Program.print .out text) .os >>=
      (fun _ => Action.trial (Program.print .err "") .os) = _
    rw [hempty, hprint]
    exact bind_pure _
  | err =>
    show Action.trial (Program.print .out "") .os >>=
      (fun _ => Action.trial (Program.print .err text) .os) = _
    rw [hempty, hprint]
    exact pure_bind _ _

namespace Report

theorem line_ne (s : String) : line s ≠ "" := by
  intro h
  have hlist := congrArg String.toList h
  simp [line] at hlist

theorem append_ne_of_right {a b : String} (h : b ≠ "") : a ++ b ≠ "" :=
  fun hab => h (String.append_eq_empty_iff.mp hab).2

theorem failuresText_eq_empty {r : Report} {colored : Bool} (h : r.failuresText colored = "") :
    r.problems.unexpectedFailures.isEmpty = true := by
  unfold failuresText at h
  split at h
  · next hempty => exact hempty
  · exact absurd h (append_ne_of_right (line_ne _))

theorem removalsText_eq_empty {r : Report} {colored : Bool} {heading : String}
    {s : OrderedSet ScriptPath} (h : r.removalsText colored heading s = "") : s.isEmpty = true := by
  unfold removalsText at h
  split at h
  · next hempty => exact hempty
  · exact absurd h (append_ne_of_right (line_ne _))

/-- Where nothing is said there are no problems. -/
theorem isClean_of_problemsText_eq_empty {r : Report} {colored : Bool}
    (h : r.problemsText colored = "") : r.problems.isClean = true := by
  obtain ⟨hfront, hentries⟩ := String.append_eq_empty_iff.mp h
  obtain ⟨hfailures, hpasses⟩ := String.append_eq_empty_iff.mp hfront
  simp [Problems.isClean, failuresText_eq_empty hfailures, removalsText_eq_empty hpasses,
    removalsText_eq_empty hentries]

/-- **A report is a text on one stream.** -/
theorem exists_render_eq (r : Report) (format : Format) (colored : Bool) :
    ∃ stream text, text ≠ "" ∧ r.render format colored = .only stream text := by
  cases format with
  | json =>
    refine ⟨.out, r.toJson.document, fun h => ?_, rfl⟩
    have hlist := congrArg String.toList h
    simp [Json.document] at hlist
  | human =>
    unfold render
    cases hv : r.verdict with
    | passed => exact ⟨.out, r.confirmation, line_ne _, rfl⟩
    | failed =>
      -- a report without a word would be one without problems, and that has passed
      refine ⟨.err, r.problemsText colored, fun h => ?_, rfl⟩
      rw [verdict, Verdict.ofProblems, if_pos (isClean_of_problemsText_eq_empty h)] at hv
      cases hv

variable {σ : Type} {answer : (r : Request) → σ → r.Answer × σ} {s s' : σ} {asked : List Request}

/-- **Writing a report is one request**: it is written, or the system refuses it. -/
theorem ran_write {r : Report} {format : Format} {colored : Bool} {x : Except Fault Unit}
    (h : Ran answer (r.render format colored).write.run s asked x s') :
    ∃ stream text y, r.render format colored = .only stream text ∧
      asked = [.print stream text] ∧ answer (.print stream text) s = (y, s') ∧
      x = y.mapError .os := by
  obtain ⟨stream, text, htext, hrender⟩ := r.exists_render_eq format colored
  rw [hrender, Streams.write_only htext] at h
  obtain ⟨y, hsend, rfl⟩ := Action.ran_trial_iff.mp h
  obtain ⟨rfl, hy⟩ := ran_send_iff.mp hsend
  exact ⟨stream, text, y, hrender, rfl, hy, rfl⟩

/-- A run that ends with its report ends with the verdict if the report is written, and else with
the fault of the system. -/
theorem ran_write_verdict {r : Report} {format : Format} {colored : Bool}
    {x : Except Fault Verdict}
    (h : Ran answer ((r.render format colored).write >>= fun _ =>
      (pure r.verdict : Action Verdict)).run s asked x s') :
    ∃ stream text, r.render format colored = .only stream text ∧
      asked = [.print stream text] ∧
      ((∃ e, answer (.print stream text) s = (.error e, s') ∧ x = .error (.os e)) ∨
        answer (.print stream text) s = (.ok (), s') ∧ x = .ok r.verdict) := by
  rcases Action.ran_bind_iff.mp h with ⟨f, hwrite, rfl⟩ |
    ⟨writing, _, s₁, last, hwrite, hlast, rfl⟩
  · obtain ⟨stream, text, y, hrendered, rfl, hy, he⟩ := ran_write hwrite
    cases y with
    | ok _ => cases he
    | error e =>
      cases he
      exact ⟨stream, text, hrendered, rfl, Or.inl ⟨e, hy, rfl⟩⟩
  · obtain ⟨stream, text, y, hrendered, rfl, hy, he⟩ := ran_write hwrite
    obtain ⟨rfl, rfl, rfl⟩ := Action.ran_pure_iff.mp hlast
    cases y with
    | error e => cases he
    | ok _ => exact ⟨stream, text, hrendered, rfl, Or.inr ⟨hy, rfl⟩⟩

end Report
end LintGate
