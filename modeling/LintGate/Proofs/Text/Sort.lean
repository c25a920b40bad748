import Mathlib.Data.List.Dedup
import LintGate.Proofs.Text.ByteOrder
import LintGate.Proofs.Text.Ordered

/-!
# Sorting the lines of a file

`sort -u` in the C locale takes a file for lines of bytes: it puts them in order, keeps
one of equal lines, and ends each with a line feed.

## Main definitions

* `rawLines` — what the line feeds of a text set apart.
* `sortUnique` — the command, on bytes.
* `sortedText` — its effect on the characters of a text.

## Main results

* `rawLines_encode` — the lines of the bytes are the bytes of the lines.
* `rawLines_ended` — lines that were written are read again.
* `sortUnique_encode` — the command on the bytes of a text.
-/

namespace LintGate
namespace Text

/-! ### Lines and their ends -/

/-- Puts a piece in front of the first line. -/
def glue {α : Type} (p : List α) : List (List α) → List (List α)
  | [] => [p]
  | l :: ls => (p ++ l) :: ls

theorem glue_glue {α : Type} (p q : List α) (ls : List (List α)) :
    glue p (glue q ls) = glue (p ++ q) ls := by
  cases ls with
  | nil => rfl
  | cons l ls => simp [glue]

theorem not_mem_of_mem_glue {α : Type} {lf a : α} {ls : List (List α)} (ha : a ≠ lf)
    (h : ∀ l ∈ ls, lf ∉ l) : ∀ l ∈ glue [a] ls, lf ∉ l := by
  have ha' : lf ∉ [a] := fun hmem => ha (List.mem_singleton.mp hmem).symm
  intro l hl
  cases ls with
  | nil => rwa [List.mem_singleton.mp hl]
  | cons q qs =>
    rcases List.mem_cons.mp hl with rfl | hl
    · rw [List.mem_append, not_or]
      exact ⟨ha', h q List.mem_cons_self⟩
    · exact h l (List.mem_cons_of_mem q hl)

section Lines

variable {α : Type} [DecidableEq α] {lf : α}

/-- The lines that the line feeds end; what follows the last of them is a line too,
unless it is empty. -/
def rawLines (lf : α) : List α → List (List α)
  | [] => []
  | a :: as => if a = lf then [] :: rawLines lf as else glue [a] (rawLines lf as)

/-- Lines in a row, each with a line feed at its end. -/
def ended (lf : α) (ls : List (List α)) : List α := ls.flatMap fun l => l ++ [lf]

theorem rawLines_lf (as : List α) : rawLines lf (lf :: as) = [] :: rawLines lf as := if_pos rfl

theorem rawLines_of_ne {a : α} (h : a ≠ lf) (as : List α) :
    rawLines lf (a :: as) = glue [a] (rawLines lf as) := if_neg h

/-- A piece without a line feed belongs to the first line. -/
theorem rawLines_append {p : List α} (hne : p ≠ []) (hp : lf ∉ p) (as : List α) :
    rawLines lf (p ++ as) = glue p (rawLines lf as) := by
  induction p with
  | nil => exact absurd rfl hne
  | cons a p ih =>
    rw [List.mem_cons, not_or] at hp
    rw [List.cons_append, rawLines_of_ne (Ne.symm hp.1)]
    cases p with
    | nil => rfl
    | cons b p => rw [ih (List.cons_ne_nil b p) hp.2, glue_glue, List.singleton_append]

/-- A line is read with its end. -/
theorem rawLines_append_lf {l : List α} (hl : lf ∉ l) (as : List α) :
    rawLines lf (l ++ lf :: as) = l :: rawLines lf as := by
  by_cases hne : l = []
  · rw [hne, List.nil_append, rawLines_lf]
  · rw [rawLines_append hne hl, rawLines_lf, glue, List.append_nil]

/-- Lines that were written are read again. -/
theorem rawLines_ended {ls : List (List α)} (h : ∀ l ∈ ls, lf ∉ l) :
    rawLines lf (ended lf ls) = ls := by
  induction ls with
  | nil => rfl
  | cons l ls ih =>
    have hstep : ended lf (l :: ls) = l ++ lf :: ended lf ls := by simp [ended]
    rw [hstep, rawLines_append_lf (h l List.mem_cons_self),
      ih fun l' hl' => h l' (List.mem_cons_of_mem l hl')]

/-- No line holds a line feed. -/
theorem not_mem_of_mem_rawLines (as : List α) : ∀ l ∈ rawLines lf as, lf ∉ l := by
  induction as with
  | nil => exact fun l hl => absurd hl List.not_mem_nil
  | cons a as ih =>
    by_cases ha : a = lf
    · rw [ha, rawLines_lf]
      intro l hl
      rcases List.mem_cons.mp hl with rfl | hl
      · exact List.not_mem_nil
      · exact ih l hl
    · rw [rawLines_of_ne ha]
      exact not_mem_of_mem_glue ha ih

end Lines

/-! ### Lines of bytes -/

theorem map_encode_glue (p : List Char) (ls : List (List Char)) :
    (glue p ls).map encode = glue (encode p) (ls.map encode) := by
  cases ls with
  | nil => rfl
  | cons l ls => simp [glue, encode]

/-- The lines of the bytes are the bytes of the lines. -/
theorem rawLines_encode (cs : List Char) :
    rawLines 10 (encode cs) = (rawLines '\n' cs).map encode := by
  induction cs with
  | nil => rfl
  | cons c cs ih =>
    by_cases hc : c = '\n'
    · have hlf : encode ('\n' :: cs) = 10 :: encode cs := rfl
      rw [hc, hlf, rawLines_lf, rawLines_lf, ih, List.map_cons, encode_nil]
    · have hchar : encode [c] = encodeChar c := List.append_nil _
      rw [encode_cons, rawLines_append (encodeChar_ne_nil c) (lf_mem_encodeChar_iff.not.mpr hc),
        rawLines_of_ne hc, map_encode_glue, ih, hchar]

theorem encode_ended (ls : List (List Char)) :
    encode (ended '\n' ls) = ended 10 (ls.map encode) := by
  induction ls with
  | nil => rfl
  | cons l ls ih =>
    have hstep : ∀ more, encode (l ++ '\n' :: more) = encode l ++ 10 :: encode more := fun more =>
      List.flatMap_append
    simpa [ended, hstep] using ih

/-! ### The command -/

/-- `sort -u` in the C locale: the lines of a file in the order of their bytes, one of
equal lines, each with a line feed. -/
def sortUnique (content : Bytes) : Bytes :=
  ended 10 ((rawLines 10 content).mergeSort fun a b => decide (a ≤ b)).dedup

/-- The lines of a text in their order, one of equal lines, each with a line feed. -/
def sortedText (content : List Char) : List Char :=
  ended '\n' ((canonical ((rawLines '\n' content).map String.ofList)).map String.toList)

theorem before_iff {s t : String} : Before s t ↔ s.toList < t.toList := Iff.rfl

/-- Sorting and dropping equal lines leaves lines in strict order. -/
theorem pairwise_dedup_mergeSort (ls : List Bytes) :
    ((ls.mergeSort fun a b => decide (a ≤ b)).dedup).Pairwise (· < ·) := by
  have hle : (ls.mergeSort fun a b => decide (a ≤ b)).Pairwise fun a b =>
      decide (a ≤ b) = true := by
    refine List.pairwise_mergeSort (fun a b c hab hbc => ?_) (fun a b => ?_) ls
    · rw [decide_eq_true_iff] at hab hbc ⊢
      exact List.le_trans hab hbc
    · rw [Bool.or_eq_true, decide_eq_true_iff, decide_eq_true_iff]
      exact List.le_total a b
  refine ((hle.sublist (List.dedup_sublist _)).and (List.nodup_dedup _)).imp ?_
  rintro a b ⟨hab, hne⟩
  by_contra hlt
  exact hne (List.le_antisymm (of_decide_eq_true hab) (List.not_lt.mp hlt))

/-- **The command on the bytes of a text**: it keeps characters whole, and its order is the
order of texts. -/
theorem sortUnique_encode (cs : List Char) : sortUnique (encode cs) = encode (sortedText cs) := by
  rw [sortUnique, sortedText, encode_ended, rawLines_encode, List.map_map]
  congr 1
  have hcommand := pairwise_dedup_mergeSort ((rawLines '\n' cs).map encode)
  have htext : ((canonical ((rawLines '\n' cs).map String.ofList)).map
      (encode ∘ String.toList)).Pairwise (· < ·) :=
    List.pairwise_map.mpr <| (pairwise_canonical _).imp fun h =>
      encode_lt_iff.mpr (before_iff.mp h)
  refine eq_of_mem_iff (fun a b => List.lt_asymm) hcommand htext fun b => ?_
  simp [mem_canonical]

end Text
end LintGate
