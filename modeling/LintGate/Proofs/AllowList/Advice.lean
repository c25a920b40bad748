import LintGate.Proofs.AllowList.Order
import LintGate.Proofs.Lint.Partition
import LintGate.Proofs.Script.Spelling
import Mathlib.Data.Set.Finite.Lemmas

/-!
# Following a report

A report says which scripts to add to the allow-list and which to take off it.  Once that is
done the list names the scripts that fail, and these alone.  So the next run passes if the list
is read as it is meant.  It has one path a line, and a line can name a script only if its path
is not empty, has no line feed in it and is read as it is.

## Main definitions

* `Problems.advised` — the scripts that a report says are to be listed.
* `AllowList.textOf` — a list of scripts as the text of a file.
* `ScriptPath.IsListable` — the scripts that a line can name.

## Main results

* `mem_advised_iff` — the scripts to be listed are those that fail.
* `AllowList.parse_textOf`, `AllowList.isListable_of_read` — scripts are written and read again
  if a line can name each of them, and only then.
* `follow_report_iff` — **exactly when following a report makes the next run pass.**
-/

namespace LintGate

open Text

/-- The scripts that a report says are to be listed: the entries that are not stale, and the
unexpected failures. -/
def Problems.advised (allowed : AllowList) (p : Problems) : OrderedSet ScriptPath :=
  .ofList ((allowed.entries.toList.filter fun s =>
    !p.stalePasses.contains s && !p.staleEntries.contains s) ++ p.unexpectedFailures.keys)

/-- The text of a file that has one path a line. -/
def AllowList.textOf (scripts : OrderedSet ScriptPath) : String :=
  String.ofList (ended '\n' (scripts.toList.map fun s => s.text.toList))

/-- A script that a line can name: its path is read as it is, and it fills one line. -/
structure ScriptPath.IsListable (s : ScriptPath) : Prop where
  ofText_text : ofText s.text = s
  text_ne : s.text ≠ ""
  lf_not_mem : '\n' ∉ s.text.toList

variable {found : List ScriptPath} {allowed : AllowList} {outcomes : Outcomes}

/-! ### The scripts to be listed -/

/-- If every script has an outcome, the scripts to be listed are those that fail. -/
theorem mem_advised_iff (hcomplete : ∀ s ∈ found, ∃ o, outcomes.get? s = some o) (s : ScriptPath) :
    s ∈ ((classify found allowed outcomes).advised allowed).toList ↔
      s ∈ found ∧ ∃ d, outcomes.get? s = some (.failed d) := by
  rw [Problems.advised, OrderedSet.mem_ofList, List.mem_append, List.mem_filter,
    mem_keys_failures_classify, Bool.and_eq_true, Bool.not_eq_true', Bool.not_eq_true',
    OrderedSet.contains_eq_false_iff, OrderedSet.contains_eq_false_iff, mem_stalePasses_classify,
    mem_staleEntries_classify]
  constructor
  · rintro (⟨hl, hpass, hentry⟩ | ⟨hs, hd, -⟩)
    · -- an entry that is not stale was found, and is not clean
      have hs : s ∈ found := by
        by_contra hs
        exact hentry ⟨hl, hs⟩
      obtain ⟨o, ho⟩ := hcomplete s hs
      cases o with
      | clean => exact absurd ⟨hs, ho, hl⟩ hpass
      | failed d => exact ⟨hs, d, ho⟩
    · exact ⟨hs, hd⟩
  · rintro ⟨hs, d, hd⟩
    by_cases hl : s ∈ allowed.entries.toList
    · refine Or.inl ⟨hl, ?_, fun h => h.2 hs⟩
      rintro ⟨-, hclean, -⟩
      rw [hd] at hclean
      cases hclean
    · exact Or.inr ⟨hs, ⟨d, hd⟩, hl⟩

/-- If every script has an outcome, there are no problems exactly if the list names the scripts
that fail. -/
theorem isClean_classify_iff_mem_advised {allowed' : AllowList}
    (hcomplete : ∀ s ∈ found, ∃ o, outcomes.get? s = some o) :
    (classify found allowed' outcomes).isClean = true ↔ ∀ s, s ∈ allowed'.entries.toList ↔
      s ∈ ((classify found allowed outcomes).advised allowed).toList := by
  simp only [isClean_classify_iff, mem_advised_iff hcomplete]
  constructor
  · rintro ⟨hfailed, hclean, hfound⟩ s
    constructor
    · intro hl
      obtain ⟨o, ho⟩ := hcomplete s (hfound s hl)
      cases o with
      | clean => exact absurd hl (hclean s (hfound s hl) ho)
      | failed d => exact ⟨hfound s hl, d, ho⟩
    · rintro ⟨hs, d, hd⟩
      exact hfailed s hs d hd
  · intro h
    refine ⟨fun s hs d hd => (h s).mpr ⟨hs, d, hd⟩, fun s hs hc hl => ?_, fun s hl => ?_⟩
    · obtain ⟨-, d, hd⟩ := (h s).mp hl
      rw [hc] at hd
      cases hd
    · exact ((h s).mp hl).1

/-! ### Scripts that a line can name -/

namespace ScriptPath

/-- The path of a script that a line can name ends with no blank. -/
theorem IsListable.stripEnd_text {s : ScriptPath} (h : s.IsListable) :
    stripEnd s.text.toList = s.text.toList := by
  have hform : s.text.toList = normalize s.text.toList := by
    conv_lhs => rw [← h.ofText_text, ofText, String.toList_ofList]
  rw [stripEnd_eq_self_iff, hform]
  exact getLast?_normalize _

end ScriptPath

/-! ### Reading what was written -/

namespace AllowList

variable {scripts : OrderedSet ScriptPath}

/-- What is read of a text that has one path a line is read of each path. -/
theorem significantLines_textOf_eq : significantLines (textOf scripts) =
    (scripts.toList.flatMap fun s => trimmedLines s.text.toList).map String.ofList := by
  rw [significantLines_eq_entryLines, entryLines, textOf, String.toList_ofList,
    trimmedLines_ended, List.flatMap_map]

/-- Scripts that a line can name are written one a line. -/
theorem significantLines_textOf (h : ∀ s ∈ scripts.toList, s.IsListable) :
    significantLines (textOf scripts) = scripts.toList.map ScriptPath.text := by
  have hline : ∀ s ∈ scripts.toList, trimmedLines s.text.toList = [s.text.toList] := by
    intro s hs
    refine trimmedLines_of_line ⟨(h s hs).lf_not_mem, (h s hs).stripEnd_text, ?_⟩
    rw [Ne, String.toList_eq_nil_iff]
    exact (h s hs).text_ne
  rw [significantLines_textOf_eq, List.flatMap_congr hline, ← List.map_eq_flatMap, List.map_map]
  exact List.map_congr_left fun s _ => String.ofList_toList

/-- Scripts that a line can name are written and read again. -/
theorem parse_textOf (h : ∀ s ∈ scripts.toList, s.IsListable) (path : String) :
    parse path (textOf scripts) = .ok ⟨path, scripts⟩ := by
  have hlines := significantLines_textOf h
  have hordered : scripts.toList.map ScriptPath.text =
      canonical (scripts.toList.map ScriptPath.text) :=
    eq_canonical_iff.mpr (List.pairwise_map.mpr scripts.ordered)
  have hread : (scripts.toList.map ScriptPath.text).map ScriptPath.ofText = scripts.toList := by
    rw [List.map_map]
    exact (List.map_congr_left fun s hs => (h s hs).ofText_text).trans (List.map_id _)
  have hset : OrderedSet.ofList scripts.toList = scripts :=
    OrderedSet.ext_mem fun _ => OrderedSet.mem_ofList
  rw [← hlines] at hordered
  rw [parse_of_eq path hordered, hlines, hread, hset]

/-- What is read of a text was written as a piece of a script's path. -/
theorem exists_of_mem_significantLines {l : String} (h : l ∈ significantLines (textOf scripts)) :
    ∃ t ∈ scripts.toList, ∃ piece ∈ splitOn '\n' t.text.toList,
      isAllBlank piece = false ∧ ScriptPath.ofText l = ScriptPath.ofText (String.ofList piece) := by
  rw [significantLines_textOf_eq, List.mem_map] at h
  obtain ⟨line, hline, rfl⟩ := h
  obtain ⟨t, ht, hread⟩ := List.mem_flatMap.mp hline
  obtain ⟨hmem, hne⟩ := List.mem_filter.mp hread
  obtain ⟨piece, hpiece, rfl⟩ := List.mem_map.mp hmem
  have hblank : isAllBlank piece = false := by
    rw [Bool.eq_false_iff, Ne, ← stripEnd_eq_nil_iff]
    simpa using hne
  exact ⟨t, ht, piece, hpiece, hblank, ofText_trimmed piece⟩

/-- **If all scripts are read again, a line can name each of them.**  Of the scripts that no line
can name a longest would be read from a script that is longer still, and so can be named. -/
theorem isListable_of_read (hback : ∀ s ∈ scripts.toList, '\\' ∉ s.text.toList)
    (hread : ∀ s ∈ scripts.toList,
      ∃ l ∈ significantLines (textOf scripts), ScriptPath.ofText l = s) :
    ∀ s ∈ scripts.toList, s.IsListable := by
  by_contra hbad
  push Not at hbad
  have hfinite : {s | s ∈ scripts.toList ∧ ¬ s.IsListable}.Finite :=
    (List.finite_toSet scripts.toList).subset fun s hs => hs.1
  obtain ⟨s, ⟨hs, hnot⟩, hmax⟩ :=
    Set.exists_max_image _ (fun s : ScriptPath => s.text.toList.length) hfinite hbad
  obtain ⟨l, hl, hls⟩ := hread s hs
  obtain ⟨t, ht, piece, hpiece, hblank, hpath⟩ := exists_of_mem_significantLines hl
  rw [hls, ScriptPath.ofText, String.toList_ofList] at hpath
  have hle : s.text.toList.length ≤ piece.length := by
    rw [hpath, String.toList_ofList]
    exact (ScriptPath.length_normalize_le piece).trans (strip_sublist piece).length_le
  by_cases hlf : '\n' ∈ t.text.toList
  · -- the script with the line feed is longer, and no line can name it
    have hlt := length_lt_of_mem_splitOn hpiece hlf
    have hlong := hmax t ⟨ht, fun h => h.lf_not_mem hlf⟩
    omega
  · rw [splitOn_of_not_mem hlf, List.mem_singleton] at hpiece
    subst hpiece
    by_cases hlist : t.IsListable
    · have hst : s = t := hpath.trans hlist.ofText_text
      exact hnot (hst ▸ hlist)
    · have hlong := hmax t ⟨ht, hlist⟩
      have hsame : ScriptPath.ofText t.text = t := by
        refine ScriptPath.ofText_text_of_length_le (hback t ht) ?_
        rw [ScriptPath.ofText, ← hpath]
        exact hlong
      have hne : t.text ≠ "" := by
        rintro he
        rw [he] at hblank
        cases hblank
      exact hlist ⟨hsame, hne, hlf⟩

end AllowList

/-! ### The next run -/

/-- The next run passes exactly if a line can name each script that fails. -/
theorem parse_textOf_advised_iff
    (hform : ∀ s ∈ found, ∃ root path, ScriptPath.relative? root path = some s)
    (hcomplete : ∀ s ∈ found, ∃ o, outcomes.get? s = some o) (path : String) :
    (∃ next, AllowList.parse path
        (AllowList.textOf ((classify found allowed outcomes).advised allowed)) = .ok next ∧
      (classify found next outcomes).isClean = true) ↔
    ∀ s ∈ ((classify found allowed outcomes).advised allowed).toList, s.IsListable := by
  constructor
  · rintro ⟨next, hparse, hclean⟩
    rw [isClean_classify_iff_mem_advised hcomplete] at hclean
    refine AllowList.isListable_of_read (fun s hs => ?_) fun s hs => ?_
    · obtain ⟨root, path, hs'⟩ := hform s ((mem_advised_iff hcomplete s).mp hs).1
      obtain ⟨cs, hcs⟩ := ScriptPath.exists_normalize hs'
      exact hcs ▸ ScriptPath.backslash_not_mem_normalize cs
    · exact (AllowList.mem_entries_of_parse hparse s).mp ((hclean s).mpr hs)
  · intro h
    refine ⟨_, AllowList.parse_textOf h path, ?_⟩
    exact (isClean_classify_iff_mem_advised hcomplete).mpr fun s => Iff.rfl

/-- **Exactly when following a report makes the next run pass.**  The scripts are those of files
below a root, each has an outcome, and no path of one that fails starts with a blank.  The report
says that the list has to name the scripts found that fail.  If their paths, one a line, are the
text of the list, the list is read and the run passes exactly if none of these paths is empty
or has a line feed in it. -/
theorem follow_report_iff (found : List ScriptPath) (allowed : AllowList) (outcomes : Outcomes)
    (hform : ∀ s ∈ found, ∃ root path, ScriptPath.relative? root path = some s)
    (hcomplete : ∀ s ∈ found, ∃ o, outcomes.get? s = some o)
    (hstart : ∀ s ∈ ((classify found allowed outcomes).advised allowed).toList,
      s.text.toList.head?.any isBlank = false) :
    (∀ s, s ∈ ((classify found allowed outcomes).advised allowed).toList ↔
      s ∈ found ∧ ∃ d, outcomes.get? s = some (.failed d)) ∧
    ∀ path,
      (∃ next, AllowList.parse path
          (AllowList.textOf ((classify found allowed outcomes).advised allowed)) = .ok next ∧
        (classify found next outcomes).isClean = true) ↔
      ∀ s ∈ ((classify found allowed outcomes).advised allowed).toList,
        s.text ≠ "" ∧ '\n' ∉ s.text.toList := by
  refine ⟨mem_advised_iff hcomplete, fun path => ?_⟩
  rw [parse_textOf_advised_iff hform hcomplete]
  refine forall₂_congr fun s hs => ⟨fun h => ⟨h.text_ne, h.lf_not_mem⟩, ?_⟩
  rintro ⟨hne, hlf⟩
  obtain ⟨root, path, hs'⟩ := hform s ((mem_advised_iff hcomplete s).mp hs).1
  obtain ⟨cs, hcs⟩ := ScriptPath.exists_normalize hs'
  exact ⟨(ScriptPath.ofText_text_iff hcs).mpr (hstart s hs), hne, hlf⟩

/-- A script that fails and is not listed, one that is clean and listed, and an entry for a
script that is gone: with the first of them on the list, the next run passes. -/
theorem follow_report_stale :
    (classify [⟨"a.sh"⟩, ⟨"lib/b c.sh"⟩] ⟨"list", .ofList [⟨"a.sh"⟩, ⟨"d.sh"⟩]⟩
      (.ofList [(⟨"a.sh"⟩, .clean), (⟨"lib/b c.sh"⟩, .failed "SC2086")])).isClean = false ∧
    ∃ next, AllowList.parse "list" "lib/b c.sh\n" = .ok next ∧
      (classify [⟨"a.sh"⟩, ⟨"lib/b c.sh"⟩] next
        (.ofList [(⟨"a.sh"⟩, .clean), (⟨"lib/b c.sh"⟩, .failed "SC2086")])).isClean = true := by
  have hadvised : ((classify [⟨"a.sh"⟩, ⟨"lib/b c.sh"⟩] ⟨"list", .ofList [⟨"a.sh"⟩, ⟨"d.sh"⟩]⟩
      (.ofList [(⟨"a.sh"⟩, .clean), (⟨"lib/b c.sh"⟩, .failed "SC2086")])).advised
        ⟨"list", .ofList [⟨"a.sh"⟩, ⟨"d.sh"⟩]⟩) = .ofList [⟨"lib/b c.sh"⟩] := by rfl
  have htext : AllowList.textOf (.ofList [⟨"lib/b c.sh"⟩]) = "lib/b c.sh\n" := rfl
  obtain ⟨-, hnext⟩ := follow_report_iff [⟨"a.sh"⟩, ⟨"lib/b c.sh"⟩]
    ⟨"list", .ofList [⟨"a.sh"⟩, ⟨"d.sh"⟩]⟩
    (.ofList [(⟨"a.sh"⟩, .clean), (⟨"lib/b c.sh"⟩, .failed "SC2086")])
    (by
      intro s hs
      rcases List.mem_cons.mp hs with rfl | hs
      · exact ⟨"/r", "/r/a.sh", by decide⟩
      · rw [List.mem_singleton.mp hs]
        exact ⟨"/r", "/r/lib/b c.sh", by decide⟩)
    (by
      intro s hs
      rcases List.mem_cons.mp hs with rfl | hs
      · exact ⟨.clean, by decide⟩
      · rw [List.mem_singleton.mp hs]
        exact ⟨.failed "SC2086", by decide⟩)
    (by rw [hadvised]; decide)
  refine ⟨by decide, ?_⟩
  rw [← htext, ← hadvised, hnext, hadvised]
  decide

/-- A line feed in the name of a file that fails: its path is read as two, neither of which is
found, and the next run fails too. -/
theorem follow_report_not_line_feed :
    ScriptPath.relative? "/r" "/r/a\nb.sh" = some ⟨"a\nb.sh"⟩ ∧
    AllowList.textOf ((classify [⟨"a\nb.sh"⟩] ⟨"list", .empty⟩
      (.ofList [(⟨"a\nb.sh"⟩, .failed "SC2086")])).advised ⟨"list", .empty⟩) = "a\nb.sh\n" ∧
    AllowList.parse "list" "a\nb.sh\n" = .ok ⟨"list", .ofList [⟨"a"⟩, ⟨"b.sh"⟩]⟩ ∧
    (classify [⟨"a\nb.sh"⟩] ⟨"list", .ofList [⟨"a"⟩, ⟨"b.sh"⟩]⟩
      (.ofList [(⟨"a\nb.sh"⟩, .failed "SC2086")])).isClean = false := by
  refine ⟨by decide, by decide +kernel, rfl, by decide⟩

end LintGate
