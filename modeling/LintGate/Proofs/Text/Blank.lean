import Mathlib.Data.List.DropRight
import Mathlib.Data.List.TakeWhile
import LintGate.Text.Blank

/-!
# Trimming

## Main results

* `takeWhile_append_of_stop` — a run of characters and what stops it.
* `strip_append_cons` — trimming a text with something in it that is no blank.
* `strip_eq_self_iff` — the texts that trimming leaves as they are.
* `strip_stripEnd` — trimming the end first changes nothing.
* `strip_surrounded`, `exists_surrounded_strip` — the blanks around a text.
-/

namespace LintGate
namespace Text

variable {a b : List Char} {c : Char}

/-! ### Runs of characters -/

/-- Characters of a class, and something behind them that is not in it. -/
theorem takeWhile_append_of_stop {p : Char → Bool} {a b : List Char} (ha : ∀ c ∈ a, p c = true)
    (hb : b.head?.any p = false) : (a ++ b).takeWhile p = a ∧ (a ++ b).dropWhile p = b := by
  rw [List.takeWhile_append_of_pos ha, List.dropWhile_append_of_pos ha]
  cases b with
  | nil => simp
  | cons c b =>
    have hc : p c = false := hb
    simp [hc]

theorem head?_dropWhile (p : Char → Bool) (cs : List Char) :
    (cs.dropWhile p).head?.any p = false := by
  induction cs with
  | nil => rfl
  | cons c cs ih =>
    cases hc : p c with
    | true => simpa [hc] using ih
    | false => simp [hc]

/-! ### Trimming once -/

theorem stripStart_suffix (cs : List Char) : stripStart cs <:+ cs := List.dropWhile_suffix _

/-- The blanks that are trimmed off the end. -/
theorem exists_append_stripEnd (cs : List Char) :
    ∃ blanks, cs = stripEnd cs ++ blanks ∧ ∀ c ∈ blanks, isBlank c = true := by
  refine ⟨(cs.reverse.takeWhile isBlank).reverse, ?_, fun c hc => ?_⟩
  · rw [stripEnd, ← List.reverse_append, List.takeWhile_append_dropWhile, List.reverse_reverse]
  · exact List.mem_takeWhile_imp (List.mem_reverse.mp hc)

theorem isPrefix_stripEnd (cs : List Char) : stripEnd cs <+: cs := by
  obtain ⟨blanks, h, -⟩ := exists_append_stripEnd cs
  exact ⟨blanks, h.symm⟩

theorem strip_sublist (cs : List Char) : (strip cs).Sublist cs :=
  (isPrefix_stripEnd _).sublist.trans (stripStart_suffix cs).sublist

theorem stripStart_append_cons (hc : isBlank c = false) :
    stripStart (a ++ c :: b) = stripStart a ++ c :: b := by
  induction a with
  | nil => simp [stripStart, hc]
  | cons x a ih =>
    cases hx : isBlank x with
    | true => simpa [stripStart, hx] using ih
    | false => simp [stripStart, hx]

theorem stripEnd_append_cons (hc : isBlank c = false) :
    stripEnd (a ++ c :: b) = a ++ c :: stripEnd b := by
  have hrev : (a ++ c :: b).reverse = b.reverse ++ c :: a.reverse := by simp
  have hdrop := stripStart_append_cons (a := b.reverse) (b := a.reverse) hc
  unfold stripStart at hdrop
  rw [stripEnd, hrev, hdrop]
  simp [stripEnd]

/-- Trimming a text with something in it that is no blank: what is trimmed off the end of
its first part alone stays in the whole. -/
theorem strip_append_cons (hc : isBlank c = false) (a : List Char) :
    ∃ blanks, (∀ x ∈ blanks, isBlank x = true) ∧
      ∀ b, strip (a ++ c :: b) = strip a ++ blanks ++ c :: stripEnd b := by
  obtain ⟨blanks, hsplit, hblank⟩ := exists_append_stripEnd (stripStart a)
  refine ⟨blanks, hblank, fun b => ?_⟩
  rw [strip, stripStart_append_cons hc, stripEnd_append_cons hc, strip, ← hsplit]

theorem stripStart_eq_self_iff (cs : List Char) :
    stripStart cs = cs ↔ cs.head?.any isBlank = false := by
  cases cs with
  | nil => simp
  | cons c cs =>
    cases hc : isBlank c with
    | false => simp [stripStart, hc]
    | true =>
      have hlt : (stripStart (c :: cs)).length < (c :: cs).length := by
        rw [stripStart, List.dropWhile_cons, if_pos hc]
        exact Nat.lt_succ_of_le (stripStart_suffix cs).length_le
      refine iff_of_false (fun h => ?_) (by simp [hc])
      rw [h] at hlt
      exact absurd hlt (lt_irrefl _)

theorem stripEnd_eq_self_iff (cs : List Char) :
    stripEnd cs = cs ↔ cs.getLast?.any isBlank = false := by
  rw [← List.head?_reverse, ← stripStart_eq_self_iff, stripEnd, List.reverse_eq_iff]
  rfl

/-- A text is left as it is unless it starts or ends with a blank. -/
theorem strip_eq_self_iff (cs : List Char) :
    strip cs = cs ↔ cs.head?.any isBlank = false ∧ cs.getLast?.any isBlank = false := by
  rw [← stripStart_eq_self_iff, ← stripEnd_eq_self_iff]
  constructor
  · intro h
    have hlen : cs.length ≤ (stripStart cs).length := by
      rw [← congrArg List.length h]
      exact (isPrefix_stripEnd (stripStart cs)).length_le
    have hstart : stripStart cs = cs :=
      (stripStart_suffix cs).eq_of_length_le hlen
    rw [strip, hstart] at h
    exact ⟨hstart, h⟩
  · rintro ⟨hstart, hend⟩
    rw [strip, hstart, hend]

/-! ### Blanks around a text -/

theorem stripStart_append_left {blanks : List Char} (h : ∀ c ∈ blanks, isBlank c = true)
    (cs : List Char) : stripStart (blanks ++ cs) = stripStart cs :=
  List.dropWhile_append_of_pos h

theorem stripEnd_append_right {blanks : List Char} (h : ∀ c ∈ blanks, isBlank c = true)
    (cs : List Char) : stripEnd (cs ++ blanks) = stripEnd cs := by
  have hrev : ∀ c ∈ blanks.reverse, isBlank c = true := fun c hc => h c (List.mem_reverse.mp hc)
  rw [stripEnd, List.reverse_append, List.dropWhile_append_of_pos hrev, stripEnd]

/-! ### Trimming twice -/

theorem stripEnd_stripEnd (cs : List Char) : stripEnd (stripEnd cs) = stripEnd cs :=
  List.rdropWhile_idempotent _ _

theorem isAllBlank_append (a b : List Char) :
    isAllBlank (a ++ b) = (isAllBlank a && isAllBlank b) := List.all_append

/-- Blanks that are trimmed off do not count. -/
theorem isAllBlank_stripEnd (cs : List Char) : isAllBlank (stripEnd cs) = isAllBlank cs := by
  obtain ⟨blanks, hcs, hblank⟩ := exists_append_stripEnd cs
  have hb : isAllBlank blanks = true := List.all_eq_true.mpr hblank
  conv_rhs => rw [hcs, isAllBlank_append, hb, Bool.and_true]

theorem stripEnd_eq_nil_iff (cs : List Char) : stripEnd cs = [] ↔ isAllBlank cs = true := by
  rw [isAllBlank, List.all_eq_true]
  exact List.rdropWhile_eq_nil_iff

/-- The last blanks of a text that goes on in front. -/
theorem stripEnd_cons (c : Char) (cs : List Char) :
    stripEnd (c :: cs) = if isAllBlank (c :: cs) = true then [] else c :: stripEnd cs := by
  split
  · next h => exact (stripEnd_eq_nil_iff _).mpr h
  · next h =>
    cases hc : isBlank c with
    | false => exact stripEnd_append_cons (a := []) hc
    | true =>
      -- some later character is no blank, and the trimming ends there
      obtain ⟨x, hx, hblank⟩ := List.all_eq_false.mp (Bool.eq_false_iff.mpr h)
      rw [Bool.not_eq_true] at hblank
      rcases List.mem_cons.mp hx with rfl | hx
      · rw [hc] at hblank
        cases hblank
      · obtain ⟨a, b, rfl⟩ := List.append_of_mem hx
        rw [← List.cons_append, stripEnd_append_cons hblank, stripEnd_append_cons hblank]
        rfl

/-- Trimming the end first changes nothing. -/
theorem strip_stripEnd (cs : List Char) : strip (stripEnd cs) = strip cs := by
  cases h : isAllBlank cs with
  | true =>
    have hstart : stripStart cs = [] := List.dropWhile_eq_nil_iff.mpr (List.all_eq_true.mp h)
    rw [(stripEnd_eq_nil_iff cs).mpr h, strip_nil, strip, hstart, stripEnd_nil]
  | false =>
    obtain ⟨c, hc, hblank⟩ := List.all_eq_false.mp h
    obtain ⟨a, b, rfl⟩ := List.append_of_mem hc
    rw [Bool.not_eq_true] at hblank
    simp only [strip, stripStart_append_cons hblank, stripEnd_append_cons hblank,
      stripEnd_stripEnd]

/-- Blanks around a text are trimmed off with those of the text. -/
theorem strip_surrounded {before after : List Char} (hbefore : ∀ c ∈ before, isBlank c = true)
    (hafter : ∀ c ∈ after, isBlank c = true) (cs : List Char) :
    strip (before ++ cs ++ after) = strip cs := by
  rw [← strip_stripEnd, stripEnd_append_right hafter, strip_stripEnd, strip,
    stripStart_append_left hbefore, strip]

/-- The blanks that are trimmed off a text. -/
theorem exists_surrounded_strip (cs : List Char) :
    ∃ before after, (∀ c ∈ before, isBlank c = true) ∧ (∀ c ∈ after, isBlank c = true) ∧
      cs = before ++ strip cs ++ after := by
  obtain ⟨after, hafter, hblank⟩ := exists_append_stripEnd (stripStart cs)
  refine ⟨cs.takeWhile isBlank, after, fun c hc => List.mem_takeWhile_imp hc, hblank, ?_⟩
  rw [List.append_assoc, strip, ← hafter, stripStart, List.takeWhile_append_dropWhile]

theorem strip_strip (cs : List Char) : strip (strip cs) = strip cs := by
  obtain ⟨before, after, hbefore, hafter, hcs⟩ := exists_surrounded_strip cs
  conv_rhs => rw [hcs, strip_surrounded hbefore hafter]

end Text
end LintGate
