import LintGate.Proofs.Path
import LintGate.Proofs.Text.Blank
import LintGate.Proofs.Text.Lines
import LintGate.Script

/-!
# The path of a directory, and the paths below it

A path is brought to its form as a whole.  So the form of a path below a directory does
not have to start with the form of the directory: blanks that end a directory's path are
trimmed only there, and a directory that is read as a dot vanishes from the paths below it.

## Main results

* `ScriptPath.normalize_below` — the form of a path below a directory.
* `ScriptPath.components_below` — all ways the two can differ.
-/

namespace LintGate
namespace ScriptPath

open Text

theorem slashed_of_isBlank {c : Char} (h : isBlank c = true) : slashed c = c := by
  have hc : c ≠ '\\' := by
    rintro rfl
    exact absurd h (by decide)
  exact if_neg hc

theorem map_slashed_of_blanks {blanks : List Char} (h : ∀ c ∈ blanks, isBlank c = true) :
    blanks.map slashed = blanks :=
  (List.map_congr_left fun c hc => slashed_of_isBlank (h c hc)).trans (List.map_id _)

theorem not_mem_of_isBlank {cs : List Char} (h : ∀ c ∈ cs, isBlank c = true) : '/' ∉ cs :=
  fun hc => absurd (h '/' hc) (by decide)

/-- The form of a path below a directory: the form of the directory comes first, with the
blanks that were trimmed off its end. -/
theorem normalize_below (dir : List Char) :
    ∃ blanks, (∀ c ∈ blanks, isBlank c = true) ∧ ∀ rest, ∃ rest',
      normalize (dir ++ '/' :: rest) = Path.dropDots (normalize dir ++ blanks ++ '/' :: rest') := by
  obtain ⟨blanks, hblank, hstrip⟩ := strip_append_cons (c := '/') (by decide) dir
  refine ⟨blanks, hblank, fun rest => ⟨(stripEnd rest).map slashed, ?_⟩⟩
  have hslash : slashed '/' = '/' := by decide
  rw [normalize, hstrip, List.map_append, List.map_append, List.map_cons,
    map_slashed_of_blanks hblank, hslash, List.append_assoc, Path.dropDots_append, normalize,
    List.append_assoc]

/-- Nothing is dropped in front of a directory and what is below it, unless the directory is
read as a dot. -/
theorem dropDots_below {d blanks : List Char} (hd : ∀ rest, d ≠ '.' :: '/' :: rest)
    (hblank : ∀ c ∈ blanks, isBlank c = true) (h : blanks ≠ [] ∨ d ≠ ['.']) (rest : List Char) :
    Path.dropDots (d ++ blanks ++ '/' :: rest) = d ++ blanks ++ '/' :: rest := by
  refine Path.dropDots_of_ne fun more he => ?_
  match d, blanks with
  | [], [] => exact absurd (List.cons.inj he).1 (by decide)
  | [], b :: _ =>
    have hb : b = '.' := (List.cons.inj he).1
    exact absurd (hblank b List.mem_cons_self) (by rw [hb]; decide)
  | [c], [] =>
    have hc : c = '.' := (List.cons.inj he).1
    rcases h with h | h
    · exact h rfl
    · exact h (by rw [hc])
  | [_], b :: _ =>
    have hb : b = '/' := (List.cons.inj (List.cons.inj he).2).1
    exact absurd (hblank b List.mem_cons_self) (by rw [hb]; decide)
  | c :: c' :: d, _ =>
    have hc : c = '.' := (List.cons.inj he).1
    have hc' : c' = '/' := (List.cons.inj (List.cons.inj he).2).1
    exact hd d (by rw [hc, hc'])

theorem components_ofNames (names : List (List Char)) :
    (ofNames names).components = splitOn '/' (normalize (joinWith ['/'] names)) := by
  simp [components, ofNames]

/-- **How a directory and a path below it are seen**: the directory is a start of the path,
or the path keeps blanks that the directory lost, or the directory is a dot. -/
theorem components_below {dir rest : List (List Char)} (hdir : dir ≠ []) (hrest : rest ≠ []) :
    (ofNames dir).components <+: (ofNames (dir ++ rest)).components ∨
    (∃ init last blanks more, blanks ≠ [] ∧ (ofNames dir).components = init ++ [last] ∧
      (ofNames (dir ++ rest)).components = init ++ (last ++ blanks) :: more) ∨
    (ofNames dir).components = [['.']] := by
  obtain ⟨blanks, hblank, hnorm⟩ := normalize_below (joinWith ['/'] dir)
  obtain ⟨rest', hrest'⟩ := hnorm (joinWith ['/'] rest)
  rw [components_ofNames, components_ofNames, joinWith_append hdir hrest, List.append_assoc,
    List.singleton_append, hrest']
  have hdots : ∀ more, normalize (joinWith ['/'] dir) ≠ '.' :: '/' :: more :=
    Path.dropDots_ne _
  generalize normalize (joinWith ['/'] dir) = d at hdots
  -- With no blanks in between, the slash ends the last component of the directory.
  by_cases hb : blanks = []
  · by_cases hd : d = ['.']
    · subst hd
      exact Or.inr (Or.inr rfl)
    · refine Or.inl ⟨splitOn '/' rest', ?_⟩
      rw [dropDots_below hdots hblank (Or.inr hd), hb, List.append_nil, splitOn_append]
  · obtain ⟨init, last, hd, hdb⟩ := splitOn_append_of_not_mem d (not_mem_of_isBlank hblank)
    refine Or.inr (Or.inl ⟨init, last, blanks, splitOn '/' rest', hb, hd, ?_⟩)
    rw [dropDots_below hdots hblank (Or.inl hb), splitOn_append, hdb, List.append_assoc]
    rfl

theorem length_normalize_le (cs : List Char) : (normalize cs).length ≤ (strip cs).length := by
  refine Nat.le_trans (Path.dropDots_suffix _).length_le ?_
  rw [List.length_map]

theorem map_slashed_eq_self_iff (cs : List Char) : cs.map slashed = cs ↔ '\\' ∉ cs := by
  induction cs with
  | nil => simp
  | cons c cs ih =>
    rw [List.map_cons, List.cons.injEq, ih, List.mem_cons, not_or]
    refine and_congr_left' ?_
    unfold slashed
    split
    · next hc => exact iff_of_false (by rw [hc]; decide) (by simp [hc])
    · next hc => exact iff_of_true rfl (Ne.symm hc)

/-- **The paths that are in their form already**, if they do not start with dots: those
without backslashes and outer blanks. -/
theorem normalize_eq_self_iff {cs : List Char} (h : ∀ rest, cs ≠ '.' :: '/' :: rest) :
    normalize cs = cs ↔
      '\\' ∉ cs ∧ cs.head?.any isBlank = false ∧ cs.getLast?.any isBlank = false := by
  rw [← strip_eq_self_iff, ← map_slashed_eq_self_iff]
  constructor
  · intro hn
    have hlen := length_normalize_le cs
    rw [hn] at hlen
    have hstrip : strip cs = cs := (strip_sublist cs).eq_of_length_le hlen
    rw [normalize, hstrip] at hn
    have hdots : Path.dropDots (cs.map slashed) = cs.map slashed :=
      (Path.dropDots_suffix _).eq_of_length_le (by rw [hn, List.length_map])
    exact ⟨hdots.symm.trans hn, hstrip⟩
  · rintro ⟨hslash, hstrip⟩
    rw [normalize, hstrip, hslash, Path.dropDots_of_ne h]

end ScriptPath
end LintGate
