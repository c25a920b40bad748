import Mathlib.Logic.Relation
import LintGate.Proofs.AllowList.Remedy
import LintGate.Proofs.Lint.Partition
import LintGate.Proofs.Text.Lines

/-!
# Which texts are allow-lists

A text is an allow-list if the lines that count in it are in strict byte order.  The lines that
count are what stands between its line feeds, without last blanks, unless nothing is left.  They
are read on either side of each line feed, and blanks at the end of a text do not count; from
this follows what can be changed in a text without changing what is read of it.

## Main definitions

* `AllowList.entryLines` — the lines of a text that count.
* `AllowList.Ascends` — lines in strict byte order.
* `AllowList.Relaid` — one change to the layout of a text.

## Main results

* `AllowList.significantLines_eq_entryLines` — what is read of a text are these lines.
* `AllowList.trimmedLines_append_lf` — lines are read on either side of a line feed.
* `AllowList.Relaid.trimmedLines_eq` — a change to the layout leaves the lines that count.
* `AllowList.parse_isOk_iff_ascends` — **which texts are lists, and what is read of any text.**
-/

namespace LintGate
namespace AllowList

open Text

/-! ### The lines that count -/

/-- What stands between the line feeds of a text, without last blanks, unless nothing is
left. -/
def trimmedLines (content : List Char) : List (List Char) :=
  ((splitOn '\n' content).map stripEnd).filter fun l => !l.isEmpty

/-- The lines of a text that count. -/
def entryLines (content : String) : List String :=
  (trimmedLines content.toList).map String.ofList

@[simp] theorem trimmedLines_nil : trimmedLines [] = [] := rfl

/-- **Lines are read on either side of a line feed.** -/
theorem trimmedLines_append_lf (a b : List Char) :
    trimmedLines (a ++ '\n' :: b) = trimmedLines a ++ trimmedLines b := by
  rw [trimmedLines, splitOn_append, List.map_append, List.filter_append, trimmedLines,
    trimmedLines]

/-- Blanks at the end of a text do not count. -/
theorem trimmedLines_append_blanks {blanks : List Char} (hblank : ∀ c ∈ blanks, isBlank c = true)
    (hlf : '\n' ∉ blanks) (a : List Char) : trimmedLines (a ++ blanks) = trimmedLines a := by
  obtain ⟨ps, p, ha, hab⟩ := splitOn_append_of_not_mem a hlf
  rw [trimmedLines, trimmedLines, ha, hab, List.map_append, List.map_append, List.map_singleton,
    List.map_singleton, stripEnd_append_right hblank]

/-- A line of blanks does not count. -/
theorem trimmedLines_of_blanks {blanks : List Char} (hblank : ∀ c ∈ blanks, isBlank c = true)
    (hlf : '\n' ∉ blanks) : trimmedLines blanks = [] :=
  trimmedLines_append_blanks hblank hlf []

/-- A carriage return in front of a line feed does not count. -/
theorem trimmedLines_append_crlf (a b : List Char) :
    trimmedLines (a ++ '\r' :: '\n' :: b) = trimmedLines a ++ trimmedLines b := by
  have happend : a ++ '\r' :: '\n' :: b = a ++ ['\r'] ++ '\n' :: b := by simp
  have hblank : ∀ c ∈ ['\r'], isBlank c = true := fun c hc => List.mem_singleton.mp hc ▸ rfl
  rw [happend, trimmedLines_append_lf, trimmedLines_append_blanks hblank (by decide)]

/-- The lines that count are trimmed and not empty, and hold no line feed. -/
theorem of_mem_trimmedLines {content l : List Char} (h : l ∈ trimmedLines content) :
    '\n' ∉ l ∧ stripEnd l = l ∧ l ≠ [] := by
  obtain ⟨hmem, hne⟩ := List.mem_filter.mp h
  obtain ⟨piece, hpiece, rfl⟩ := List.mem_map.mp hmem
  refine ⟨fun hlf => ?_, stripEnd_stripEnd piece, by simpa using hne⟩
  exact not_mem_of_mem_splitOn hpiece ((isPrefix_stripEnd piece).subset hlf)

/-- A line that counts is read as it is. -/
theorem trimmedLines_of_line {l : List Char} (h : '\n' ∉ l ∧ stripEnd l = l ∧ l ≠ []) :
    trimmedLines l = [l] := by
  rw [trimmedLines, splitOn_of_not_mem h.1, List.map_singleton, h.2.1, List.filter_eq_self]
  simpa using h.2.2

/-- Lines that count are read again from a row of them with line feeds in between. -/
theorem trimmedLines_joinWith {ls : List (List Char)}
    (h : ∀ l ∈ ls, '\n' ∉ l ∧ stripEnd l = l ∧ l ≠ []) :
    trimmedLines (joinWith ['\n'] ls) = ls := by
  induction ls with
  | nil => rfl
  | cons l ls ih =>
    have hl := trimmedLines_of_line (h l List.mem_cons_self)
    cases ls with
    | nil => exact hl
    | cons m ms =>
      rw [joinWith_cons_cons, List.append_assoc, List.singleton_append, trimmedLines_append_lf, hl,
        ih fun l' hl' => h l' (List.mem_cons_of_mem l hl')]
      rfl

/-- Each line of a row with line feeds behind them is read for itself. -/
theorem trimmedLines_ended (ls : List (List Char)) :
    trimmedLines (ended '\n' ls) = ls.flatMap trimmedLines := by
  induction ls with
  | nil => rfl
  | cons l ls ih =>
    have hstep : ended '\n' (l :: ls) = l ++ '\n' :: ended '\n' ls := by simp [ended]
    rw [hstep, trimmedLines_append_lf, ih, List.flatMap_cons]

/-- Any lines that count in a text, in any order, are the lines of a text of their own. -/
theorem entryLines_join {content : String} {ls : List String}
    (h : ∀ l ∈ ls, l ∈ entryLines content) : entryLines (join "\n" ls) = ls := by
  have hlines : ∀ l ∈ ls.map String.toList, '\n' ∉ l ∧ stripEnd l = l ∧ l ≠ [] := by
    rw [List.forall_mem_map]
    intro s hs
    obtain ⟨l, hl, rfl⟩ := List.mem_map.mp (h s hs)
    rw [String.toList_ofList]
    exact of_mem_trimmedLines hl
  have hsep : "\n".toList = ['\n'] := rfl
  rw [entryLines, join, String.toList_ofList, hsep, trimmedLines_joinWith hlines, List.map_map]
  exact (List.map_congr_left fun s _ => String.ofList_toList).trans (List.map_id ls)

/-! ### What is read -/

/-- What stands between line feeds are the lines they end, and an empty piece behind a last line
feed. -/
theorem splitOn_lf_eq (cs : List Char) :
    splitOn '\n' cs = rawLines '\n' cs ∨ splitOn '\n' cs = rawLines '\n' cs ++ [[]] := by
  induction cs with
  | nil => exact Or.inr rfl
  | cons c cs ih =>
    by_cases hc : c = '\n'
    · have hsplit : splitOn '\n' (c :: cs) = [] :: splitOn '\n' cs := if_pos hc
      rw [hsplit, hc, rawLines_lf]
      exact ih.imp (congrArg _) (congrArg _)
    · have hsplit : splitOn '\n' (c :: cs) = glue [c] (splitOn '\n' cs) := by
        rw [splitOn, if_neg hc]
        cases splitOn '\n' cs with
        | nil => rfl
        | cons p ps => rfl
      rw [hsplit, rawLines_of_ne hc]
      rcases ih with h | h
      · exact Or.inl (congrArg _ h)
      · rw [h]
        cases rawLines '\n' cs with
        | nil => exact Or.inl rfl
        | cons p ps => exact Or.inr rfl

/-- **What is read of a text are the lines that count**, whatever ends a line. -/
theorem significantLines_eq_entryLines (content : String) :
    significantLines content = entryLines content := by
  have hempty : (fun l => !l.isEmpty) ∘ stripEnd = fun l => !isAllBlank l := by
    funext l
    rw [Function.comp_apply, Bool.not_inj_iff, Bool.eq_iff_iff, List.isEmpty_iff,
      stripEnd_eq_nil_iff]
  have hlines : (splitOn '\n' content.toList).filter (fun l => !isAllBlank l) =
      nonblankLines content.toList := by
    rcases splitOn_lf_eq content.toList with h | h
    · rw [h, nonblankLines]
    · simp [h, nonblankLines]
  rw [significantLines_eq, entryLines, trimmedLines, List.filter_map, hempty, hlines,
    List.map_map]
  rfl

/-- A blank and a carriage return end a line, and nothing ends the last one. -/
example : significantLines "\na.sh \r\n\r\nb.sh" = ["a.sh", "b.sh"] := by cbv

/-- Lines whose bytes are in strict order. -/
def Ascends (ls : List String) : Prop := (ls.map fun l => encode l.toList).Pairwise (· < ·)

theorem ascends_iff_eq_canonical {ls : List String} : Ascends ls ↔ ls = canonical ls := by
  rw [Ascends, List.pairwise_map, eq_canonical_iff]
  simp only [encode_lt_iff]
  exact Iff.rfl

theorem ascends_canonical (ls : List String) : Ascends (canonical ls) :=
  ascends_iff_eq_canonical.mpr (eq_canonical_iff.mpr (pairwise_canonical ls))

theorem parse_of_ascends {content : String} (path : String) (h : Ascends (entryLines content)) :
    parse path content = .ok ⟨path, .ofList ((entryLines content).map .ofText)⟩ := by
  rw [← significantLines_eq_entryLines] at h ⊢
  exact parse_of_eq path (ascends_iff_eq_canonical.mp h)

theorem parse_of_not_ascends {content : String} (path : String)
    (h : ¬ Ascends (entryLines content)) :
    parse path content = .error (.unsortedAllowList path (canonical (entryLines content))) := by
  rw [← significantLines_eq_entryLines] at h ⊢
  exact parse_of_ne path (mt ascends_iff_eq_canonical.mpr h)

/-- What was read is a list, and its entries are the scripts that the lines name. -/
theorem of_parse_eq_ok {path content : String} {allowed : AllowList}
    (h : parse path content = .ok allowed) : Ascends (entryLines content) ∧
      allowed = ⟨path, .ofList ((entryLines content).map .ofText)⟩ := by
  by_cases hascends : Ascends (entryLines content)
  · rw [parse_of_ascends path hascends] at h
    exact ⟨hascends, (Except.ok.inj h).symm⟩
  · rw [parse_of_not_ascends path hascends] at h
    exact nomatch h

/-- The scripts that a text lists. -/
theorem contains_iff_of_parse {path content : String} {allowed : AllowList}
    (h : parse path content = .ok allowed) (q : ScriptPath) :
    allowed.contains q = true ↔ ∃ l ∈ entryLines content, ScriptPath.ofText l = q := by
  rw [contains_iff, mem_entries_of_parse h, significantLines_eq_entryLines]

/-! ### The layout of a text -/

/-- What follows is the end of a line. -/
def AtLineEnd (back : List Char) : Prop :=
  back = [] ∨ (∃ more, back = '\n' :: more) ∨ ∃ more, back = '\r' :: '\n' :: more

/-- One change to the layout of a text: a blank line more, a carriage return in front of a line
feed, blanks at the end of a line, or a line feed at the end of the text. -/
inductive Relaid : List Char → List Char → Prop
  | blankLine {blanks : List Char} (front back : List Char)
      (hfront : front = [] ∨ ∃ before, front = before ++ ['\n'])
      (hblank : ∀ c ∈ blanks, isBlank c = true) (hlf : '\n' ∉ blanks) :
      Relaid (front ++ back) (front ++ (blanks ++ '\n' :: back))
  | carriageReturn (front back : List Char) :
      Relaid (front ++ '\n' :: back) (front ++ '\r' :: '\n' :: back)
  | lastBlanks {blanks : List Char} (front : List Char) {back : List Char}
      (hback : AtLineEnd back) (hblank : ∀ c ∈ blanks, isBlank c = true) (hlf : '\n' ∉ blanks) :
      Relaid (front ++ back) (front ++ blanks ++ back)
  | finalLineFeed (front : List Char) : Relaid front (front ++ ['\n'])

/-- **A change to the layout leaves the lines that count.** -/
theorem Relaid.trimmedLines_eq {a b : List Char} (h : Relaid a b) :
    trimmedLines a = trimmedLines b := by
  cases h with
  | blankLine front back hfront hblank hlf =>
    rcases hfront with rfl | ⟨before, rfl⟩
    · rw [List.nil_append, List.nil_append, trimmedLines_append_lf,
        trimmedLines_of_blanks hblank hlf, List.nil_append]
    · rw [List.append_assoc, List.append_assoc, List.singleton_append, List.singleton_append,
        trimmedLines_append_lf, trimmedLines_append_lf, trimmedLines_append_lf,
        trimmedLines_of_blanks hblank hlf, List.nil_append]
  | carriageReturn front back => rw [trimmedLines_append_lf, trimmedLines_append_crlf]
  | lastBlanks front hback hblank hlf =>
    rcases hback with rfl | ⟨more, rfl⟩ | ⟨more, rfl⟩
    · rw [List.append_nil, List.append_nil, trimmedLines_append_blanks hblank hlf]
    · rw [trimmedLines_append_lf, trimmedLines_append_lf, trimmedLines_append_blanks hblank hlf]
    · rw [trimmedLines_append_crlf, trimmedLines_append_crlf,
        trimmedLines_append_blanks hblank hlf]
  | finalLineFeed => rw [trimmedLines_append_lf, trimmedLines_nil, List.append_nil]

/-- Changes to the layout, made and taken back in any number, leave the lines that count. -/
theorem trimmedLines_eq_of_eqvGen {a b : List Char} (h : Relation.EqvGen Relaid a b) :
    trimmedLines a = trimmedLines b := by
  induction h with
  | rel a b h => exact h.trimmedLines_eq
  | refl a => rfl
  | symm a b _ ih => exact ih.symm
  | trans a b c _ _ hab hbc => exact hab.trans hbc

/-- **Which texts are lists, and what is read of any text.**  A text is a list if the lines that
count are in strict byte order, and lists the scripts that these lines name.  Any other text is
refused, with the lines in order, each once, as expected; these are a list of the same scripts.
A change to the layout, such as a blank line more or other line ends, changes nothing of this. -/
theorem parse_isOk_iff_ascends (path content : String) :
    ((∃ allowed, parse path content = .ok allowed) ↔ Ascends (entryLines content)) ∧
    (∀ allowed, parse path content = .ok allowed → allowed.path = path ∧
      ∀ q, allowed.contains q = true ↔ ∃ l ∈ entryLines content, ScriptPath.ofText l = q) ∧
    (¬ Ascends (entryLines content) → ∃ expected,
      parse path content = .error (.unsortedAllowList path expected) ∧
      Ascends expected ∧ (∀ l, l ∈ expected ↔ l ∈ entryLines content) ∧
      ∃ mended, parse path (join "\n" expected) = .ok mended ∧
        ∀ q, mended.contains q = true ↔ ∃ l ∈ entryLines content, ScriptPath.ofText l = q) ∧
    ∀ content' : String, Relation.EqvGen Relaid content.toList content'.toList →
      parse path content' = parse path content := by
  refine ⟨⟨?_, fun h => ⟨_, parse_of_ascends path h⟩⟩, ?_, fun h => ?_, fun content' h => ?_⟩
  · rintro ⟨allowed, hok⟩
    exact (of_parse_eq_ok hok).1
  · intro allowed hok
    exact ⟨congrArg AllowList.path (of_parse_eq_ok hok).2, contains_iff_of_parse hok⟩
  · have hmem : ∀ l, l ∈ canonical (entryLines content) ↔ l ∈ entryLines content :=
      fun l => mem_canonical
    have hlines := entryLines_join fun l hl => (hmem l).mp hl
    have hascends := ascends_canonical (entryLines content)
    have hok := parse_of_ascends path (hlines.symm ▸ hascends)
    refine ⟨_, parse_of_not_ascends path h, hascends, hmem, _, hok, fun q => ?_⟩
    rw [contains_iff_of_parse hok, hlines]
    simp only [hmem]
  · simp only [parse, significantLines_eq_entryLines, entryLines, trimmedLines_eq_of_eqvGen h]

end AllowList
end LintGate
