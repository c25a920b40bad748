import LintGate.Proofs.Judgement
import LintGate.Proofs.Text.Faults

/-!
# What the outcome of linting tells

A script is clean exactly if the tool was silent, and what it said is kept as it was read.

## Main definitions

* `Output.Tells` — how the text of both streams is made up.

## Main results

* `Output.isAllBlank_combined` — the text is blank exactly if both streams are.
* `LintOutcome.clean_iff_silent` — **clean means silent, and no diagnostic is lost.**
-/

namespace LintGate

open Text

namespace Output

/-- How the text of both streams is made up: the first stream is read as it is, and the second
stands behind it unless it is blank, on a line of its own. -/
structure Tells (o : Output) (text : List Char) : Prop where
  starts : o.outText <+: text
  quiet : isAllBlank o.errText = true → text = o.outText
  /-- A line that the second stream would go on with is ended first. -/
  unended : isAllBlank o.errText = false → o.outText ≠ [] → o.outText.getLast? ≠ some '\n' →
    text = o.outText ++ ['\n'] ++ o.errText
  ended : isAllBlank o.errText = false → o.outText = [] ∨ o.outText.getLast? = some '\n' →
    text = o.outText ++ o.errText

theorem tells_combined (o : Output) : o.Tells o.combined := by
  unfold combined
  cases hblank : isAllBlank o.errText with
  | true =>
    have hquiet : isAllBlank o.errText ≠ false := by simp [hblank]
    exact ⟨List.prefix_refl _, fun _ => rfl, fun h => absurd h hquiet, fun h => absurd h hquiet⟩
  | false =>
    have hloud : isAllBlank o.errText ≠ true := by simp [hblank]
    rw [if_neg Bool.false_ne_true]
    by_cases hend : o.outText = [] ∨ o.outText.getLast? = some '\n'
    · rw [if_pos (by simpa [List.isEmpty_iff] using hend)]
      exact ⟨List.prefix_append _ _, fun h => absurd h hloud,
        fun _ hne hlast => absurd hend (not_or.mpr ⟨hne, hlast⟩), fun _ _ => rfl⟩
    · rw [if_neg (by simpa [List.isEmpty_iff] using hend)]
      refine ⟨List.prefix_append _ _, fun h => absurd h hloud, fun _ _ _ => ?_,
        fun _ h => absurd h hend⟩
      rw [List.append_assoc, List.singleton_append]

/-- The text of both streams is blank exactly if each of them is: the line feed between them is a
blank, too. -/
theorem isAllBlank_combined (o : Output) :
    isAllBlank o.combined = (isAllBlank o.outText && isAllBlank o.errText) := by
  have hfeed : isBlank '\n' = true := by decide
  unfold combined
  split
  · next hblank => rw [hblank, Bool.and_true]
  · split
    · rw [isAllBlank_append]
    · rw [isAllBlank_append, isAllBlank_cons, hfeed, Bool.true_and]

end Output

namespace LintOutcome

theorem ofOutput_eq_clean_iff_streams (o : Output) :
    ofOutput o = .clean ↔ isAllBlank o.outText = true ∧ isAllBlank o.errText = true := by
  rw [ofOutput_eq_clean_iff, o.isAllBlank_combined, Bool.and_eq_true]

/-- What is not clean failed, with the whole text. -/
theorem ofOutput_of_ne_clean {o : Output} (h : ofOutput o ≠ .clean) :
    ofOutput o = .failed (String.ofList o.combined) :=
  ofOutput_eq_failed (Bool.eq_false_iff.mpr fun hblank => h (ofOutput_eq_clean_iff.mpr hblank))

/-- **Clean means silent, and no diagnostic is lost.**  A script is clean exactly if nothing but
blanks is read from both streams, which is so exactly if their bytes are the UTF-8 form of blanks.
Else it failed with a text that holds all that was read, so it failed if the bytes of a stream are
the form of no text.  How the tool ended never counts. -/
theorem clean_iff_silent (o : Output) :
    (ofOutput o = .clean ↔
      (∀ c ∈ o.outText, isBlank c = true) ∧ ∀ c ∈ o.errText, isBlank c = true) ∧
    (ofOutput o = .clean ↔ ∃ out err, (∀ c ∈ out, isBlank c = true) ∧
      (∀ c ∈ err, isBlank c = true) ∧ o.stdout = encode out ∧ o.stderr = encode err) ∧
    (ofOutput o ≠ .clean → ∃ text, ofOutput o = .failed (String.ofList text) ∧ o.Tells text) ∧
    ((∀ cs, o.stdout ≠ encode cs) ∨ (∀ cs, o.stderr ≠ encode cs) →
      ∃ text, ofOutput o = .failed text) ∧
    ∀ status, ofOutput { o with status := status } = ofOutput o := by
  have hsilent : ofOutput o = .clean ↔ ∃ out err, (∀ c ∈ out, isBlank c = true) ∧
      (∀ c ∈ err, isBlank c = true) ∧ o.stdout = encode out ∧ o.stderr = encode err := by
    rw [ofOutput_eq_clean_iff_streams, Output.outText, Output.errText, isAllBlank_decodeLossy_iff,
      isAllBlank_decodeLossy_iff]
    constructor
    · rintro ⟨⟨out, hout, hstdout⟩, err, herr, hstderr⟩
      exact ⟨out, err, List.all_eq_true.mp hout, List.all_eq_true.mp herr, hstdout.symm,
        hstderr.symm⟩
    · rintro ⟨out, err, hout, herr, hstdout, hstderr⟩
      exact ⟨⟨out, List.all_eq_true.mpr hout, hstdout.symm⟩, err, List.all_eq_true.mpr herr,
        hstderr.symm⟩
  refine ⟨?_, hsilent, fun h => ⟨_, ofOutput_of_ne_clean h, o.tells_combined⟩, fun h => ?_,
    fun _ => rfl⟩
  · rw [ofOutput_eq_clean_iff_streams, isAllBlank, isAllBlank, List.all_eq_true, List.all_eq_true]
  · refine ⟨_, ofOutput_of_ne_clean fun hclean => ?_⟩
    obtain ⟨out, err, -, -, hstdout, hstderr⟩ := hsilent.mp hclean
    rcases h with h | h
    · exact h out hstdout
    · exact h err hstderr

/-- The first two bytes of a euro sign are read as one mark, though the tool ended well. -/
example : ofOutput ⟨[0xE2, 0x82], [], .code 0⟩ = .failed "\uFFFD" := by decide

end LintOutcome
end LintGate
