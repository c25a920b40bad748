import LintGate.AllowList
import LintGate.Proofs.Judgement
import LintGate.Proofs.Text.Blank
import LintGate.Proofs.Text.Sort

/-!
# What sorting does to an allow-list

A list that is out of order is refused with the advice to sort its file.  The list is
read without the blanks that end its lines, but the command sorts the lines with them.
So the sorted file is a list exactly if trimming keeps the order of the lines.

## Main definitions

* `AllowList.nonblankLines` — the lines that are not blank, as they stand in the file.
* `AllowList.TrimsInOrder` — trimming keeps the order of these lines.

## Main results

* `AllowList.significantLines_eq` — what is read are these lines, trimmed.
* `AllowList.nonblankLines_sortedText` — sorting keeps these lines, once each and in order.
* `AllowList.TrimsInOrder.of_stripEnd_eq` — lines without blanks at their ends stay in order.
* `AllowList.parse_sorted` — **what is read of the sorted file.**
-/

namespace LintGate
namespace AllowList

open Text

/-! ### The lines of the file -/

/-- The lines that are not blank, as they stand in the file. -/
def nonblankLines (content : List Char) : List (List Char) :=
  (rawLines '\n' content).filter fun l => !isAllBlank l

/-- A line without its last blanks. -/
def trimmed (l : List Char) : String := String.ofList (stripEnd l)

theorem map_stripEnd_glue (c : Char) {ls ms : List (List Char)}
    (h : ls.map stripEnd = ms.map stripEnd) :
    (glue [c] ls).map stripEnd = (glue [c] ms).map stripEnd := by
  cases ls with
  | nil =>
    rw [List.map_nil, eq_comm, List.map_eq_nil_iff] at h
    rw [h]
  | cons l ls =>
    obtain ⟨m, ms, rfl, hm, hms⟩ := List.map_eq_cons_iff.mp h.symm
    have hblank : isAllBlank (c :: l) = isAllBlank (c :: m) := by
      rw [isAllBlank_cons, isAllBlank_cons, ← isAllBlank_stripEnd l, ← hm, isAllBlank_stripEnd]
    simp only [glue, List.singleton_append, List.map_cons, stripEnd_cons, hblank, hm, hms]

/-- A carriage return in front of a line feed is trimmed off in any case. -/
theorem map_stripEnd_lines (cs : List Char) :
    (lines cs).map stripEnd = (rawLines '\n' cs).map stripEnd := by
  induction cs using lines.induct with
  | case1 => rfl
  | case2 cs ih => rw [lines_lf, rawLines_lf, List.map_cons, List.map_cons, ih]
  | case3 cs ih =>
    have hcr : rawLines '\n' ('\r' :: '\n' :: cs) = ['\r'] :: rawLines '\n' cs := by
      rw [rawLines_of_ne (by decide), rawLines_lf]
      rfl
    have hblank : stripEnd ['\r'] = stripEnd [] := by decide
    rw [hcr, lines, List.map_cons, List.map_cons, hblank, ih]
  | case4 c cs hlf hcr hs ih =>
    have hline : lines (c :: cs) = glue [c] (lines cs) := by
      rw [lines.eq_4 c cs hlf hcr, hs]
      rfl
    rw [hline, rawLines_of_ne hlf]
    exact map_stripEnd_glue c ih
  | case5 c cs hlf hcr l ls hs ih =>
    have hline : lines (c :: cs) = glue [c] (lines cs) := by
      rw [lines.eq_4 c cs hlf hcr, hs]
      rfl
    rw [hline, rawLines_of_ne hlf]
    exact map_stripEnd_glue c ih

/-- What is read of a file are its lines that are not blank, trimmed. -/
theorem significantLines_eq (content : String) :
    significantLines content = (nonblankLines content.toList).map trimmed := by
  have hblank : (fun l => !isAllBlank l) ∘ stripEnd = fun l => !isAllBlank l :=
    funext fun l => congrArg not (isAllBlank_stripEnd l)
  rw [significantLines, map_stripEnd_lines, List.filter_map, hblank, List.map_map]
  rfl

/-- The path that a line names does not depend on its last blanks. -/
theorem ofText_trimmed (l : List Char) :
    ScriptPath.ofText (trimmed l) = ScriptPath.ofText (String.ofList l) := by
  simp only [ScriptPath.ofText, ScriptPath.normalize, trimmed, String.toList_ofList,
    strip_stripEnd]

/-! ### The lines of the sorted file -/

theorem rawLines_sortedText (cs : List Char) : rawLines '\n' (sortedText cs) =
    (canonical ((rawLines '\n' cs).map String.ofList)).map String.toList := by
  refine rawLines_ended fun l hl => ?_
  obtain ⟨s, hs, rfl⟩ := List.mem_map.mp hl
  obtain ⟨k, hk, rfl⟩ := List.mem_map.mp (mem_canonical.mp hs)
  rw [String.toList_ofList]
  exact not_mem_of_mem_rawLines cs k hk

/-- Sorting keeps the lines that are not blank, once each and in order. -/
theorem nonblankLines_sortedText (cs : List Char) :
    (∀ l, l ∈ nonblankLines (sortedText cs) ↔ l ∈ nonblankLines cs) ∧
      (nonblankLines (sortedText cs)).Pairwise (· < ·) := by
  constructor
  · intro l
    rw [nonblankLines, nonblankLines, rawLines_sortedText, List.mem_filter, List.mem_filter]
    simp [mem_canonical]
  · rw [nonblankLines, rawLines_sortedText]
    have hordered : (canonical ((rawLines '\n' cs).map String.ofList)).Pairwise Before :=
      pairwise_canonical _
    have hlines : ((canonical ((rawLines '\n' cs).map String.ofList)).map
        String.toList).Pairwise (· < ·) := List.pairwise_map.mpr (hordered.imp before_iff.mp)
    exact hlines.filter _

/-! ### Reading the sorted file -/

/-- Trimming keeps the order of the lines that are not blank. -/
def TrimsInOrder (content : String) : Prop :=
  ∀ a ∈ nonblankLines content.toList, ∀ b ∈ nonblankLines content.toList,
    a < b → stripEnd a < stripEnd b

/-- Lines that do not end in blanks stay in order. -/
theorem TrimsInOrder.of_stripEnd_eq {content : String}
    (h : ∀ l ∈ nonblankLines content.toList, stripEnd l = l) : TrimsInOrder content := by
  intro a ha b hb hab
  rwa [h a ha, h b hb]

theorem parse_of_eq {content : String} (path : String)
    (h : significantLines content = canonical (significantLines content)) :
    parse path content = .ok ⟨path, .ofList ((significantLines content).map .ofText)⟩ := if_pos h

theorem parse_of_ne {content : String} (path : String)
    (h : significantLines content ≠ canonical (significantLines content)) :
    parse path content =
      .error (.unsortedAllowList path (canonical (significantLines content))) := if_neg h

/-- The list is in order exactly if the lines are, once they are trimmed. -/
theorem significantLines_sorted_eq_iff {content sorted : String}
    (h : sorted.toList = sortedText content.toList) :
    significantLines sorted = canonical (significantLines sorted) ↔ TrimsInOrder content := by
  obtain ⟨hmem, hordered⟩ := nonblankLines_sortedText content.toList
  rw [← h] at hmem hordered
  have htrimmed : ∀ {a b}, Before (trimmed a) (trimmed b) ↔ stripEnd a < stripEnd b := by
    intro a b
    rw [before_iff, trimmed, trimmed, String.toList_ofList, String.toList_ofList]
  rw [eq_canonical_iff, significantLines_eq, List.pairwise_map,
    pairwise_iff_of_pairwise (fun _ _ => List.lt_asymm) hordered, TrimsInOrder]
  simp only [hmem, htrimmed]

/-- The sorted file has the trimmed lines of the file it was. -/
theorem mem_significantLines_sorted {content sorted : String}
    (h : sorted.toList = sortedText content.toList) (l : String) :
    l ∈ significantLines sorted ↔ l ∈ significantLines content := by
  rw [significantLines_eq, significantLines_eq, List.mem_map, List.mem_map, h]
  simp only [(nonblankLines_sortedText content.toList).1]

/-- **What is read of the sorted file.**  The command writes a text.  If trimming keeps the
order of the lines that are not blank, the text is a list, and its entries are the scripts
that these lines name.  Else it is refused, with the same lines as expected as before. -/
theorem parse_sorted (path content : String) : ∃ sorted : String,
    sortUnique (encode content.toList) = encode sorted.toList ∧
    (TrimsInOrder content → ∃ allowed, parse path sorted = .ok allowed ∧
      ∀ s, s ∈ allowed.entries.toList ↔
        ∃ l ∈ nonblankLines content.toList, ScriptPath.ofText (String.ofList l) = s) ∧
    (¬ TrimsInOrder content → parse path sorted =
      .error (.unsortedAllowList path (canonical (significantLines content)))) := by
  obtain ⟨sorted, hsorted⟩ : ∃ sorted : String, sorted.toList = sortedText content.toList :=
    ⟨String.ofList _, String.toList_ofList⟩
  refine ⟨sorted, ?_, fun h => ?_, fun h => ?_⟩
  · rw [hsorted, sortUnique_encode]
  · have hok := parse_of_eq path ((significantLines_sorted_eq_iff hsorted).mpr h)
    refine ⟨_, hok, fun s => ?_⟩
    simp only [mem_entries_of_parse hok, mem_significantLines_sorted hsorted,
      significantLines_eq content, List.mem_map, exists_exists_and_eq_and, ofText_trimmed]
  · rw [parse_of_ne path (mt (significantLines_sorted_eq_iff hsorted).mp h),
      canonical_congr (mem_significantLines_sorted hsorted)]

/-- A blank at the end of a line: the file is refused for a repetition that the command does
not see, and stays as it is. -/
theorem parse_sorted_not_blank :
    parse "list" "a.sh\na.sh \n" = .error (.unsortedAllowList "list" ["a.sh"]) ∧
    sortUnique (encode "a.sh\na.sh \n".toList) = encode "a.sh\na.sh \n".toList := by
  constructor
  · have hread : significantLines "a.sh\na.sh \n" = ["a.sh", "a.sh"] := rfl
    have hcanonical : canonical ["a.sh", "a.sh"] = ["a.sh"] := by decide
    rw [parse_of_ne "list" (by rw [hread, hcanonical]; decide), hread, hcanonical]
  · rw [sortUnique_encode]
    decide +kernel

end AllowList
end LintGate
