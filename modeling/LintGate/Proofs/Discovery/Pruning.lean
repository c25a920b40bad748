import LintGate.Proofs.Discovery.Walk
import LintGate.Proofs.Rules
import LintGate.Proofs.Script

/-!
# What pruning loses

A directory is pruned by its own path, a file is kept by its path.  Pruning loses nothing as
long as the path of each directory, as the rules see it, is a start of the paths of the
files below it; where it is not, some rules lose a file.

## Main definitions

* `Filter.scripts` — all scripts that are kept, whatever is pruned on the way.
* `SeenThrough` — the directories on the way to a file are starts of its path.

## Main results

* `blocks_eq_false_of_keeps` — a file that is seen through is not lost.
* `exists_lossy_config` — a file that is not is lost with some rules.
* `find_eq_scripts_iff` — exactly when pruning loses nothing.
-/

namespace LintGate
namespace Discovery

open Text

/-- All scripts that the filter keeps, in the order of the walk, whatever is pruned. -/
def Filter.scripts (f : Filter) (es : List Entry) : List ScriptPath :=
  ((Entry.walk es).filter f.keeps).map ScriptPath.ofNames

/-- Each directory on the way to a file is seen as a start of the file's path. -/
def SeenThrough (ns : Names) : Prop :=
  ∀ dir rest, ns = dir ++ rest → dir ≠ [] → rest ≠ [] →
    (ScriptPath.ofNames dir).components <+: (ScriptPath.ofNames ns).components

variable {f : Filter} {ns : Names}

/-- A file is blocked by a directory on the way to it. -/
theorem blocks_iff {trail : Names} :
    f.blocks trail ns = true ↔ ∃ dir rest, ns = dir ++ rest ∧ dir ≠ [] ∧ rest ≠ [] ∧
      f.rules.prunes (ScriptPath.ofNames (trail ++ dir)).components = true := by
  induction ns generalizing trail with
  | nil => simp [Filter.blocks]
  | cons n ns ih =>
    rw [Filter.blocks, Bool.or_eq_true, Bool.and_eq_true, ih]
    constructor
    · rintro (⟨hne, hp⟩ | ⟨dir, rest, rfl, hdir, hrest, hp⟩)
      · exact ⟨[n], ns, rfl, by simp, by simpa using hne, hp⟩
      · exact ⟨n :: dir, rest, rfl, by simp, hrest, by simpa using hp⟩
    · rintro ⟨dir, rest, he, hdir, hrest, hp⟩
      obtain ⟨d, dir, rfl⟩ := List.exists_cons_of_ne_nil hdir
      obtain ⟨rfl, rfl⟩ := List.cons.inj he
      cases dir with
      | nil => exact Or.inl ⟨by simpa using hrest, hp⟩
      | cons d' dir => exact Or.inr ⟨d' :: dir, rest, rfl, by simp, hrest, by simpa using hp⟩

/-- Only files with an extension are kept. -/
theorem isSome_extension?_of_keeps (h : f.keeps ns = true) : (extension? ns).isSome = true := by
  obtain ⟨hext, -⟩ := Bool.and_eq_true_iff.mp h
  cases he : extension? ns with
  | none =>
    rw [he] at hext
    exact nomatch hext
  | some e => rfl

/-- **A file that is kept and seen through is not lost.** -/
theorem blocks_eq_false_of_keeps (h : f.keeps ns = true) (hs : SeenThrough ns) :
    f.blocks [] ns = false := by
  refine Bool.eq_false_iff.mpr fun hb => ?_
  obtain ⟨dir, rest, he, hdir, hrest, hp⟩ := blocks_iff.mp hb
  obtain ⟨-, heligible⟩ := Bool.and_eq_true_iff.mp h
  have hlost := PathRules.eligible_of_prunes (hs dir rest he hdir hrest) hp
  rw [Filter.eligible, hlost] at heligible
  exact nomatch heligible

theorem slash_not_mem_components {s : ScriptPath} {c : List Char} (h : c ∈ s.components) :
    '/' ∉ c :=
  not_mem_of_mem_splitOn h

/-- The filter of one extension and a few rules. -/
theorem ofConfig?_eq {e : List Char} {excluded included : List String} {rules : PathRules}
    (h : PathRules.ofTexts? excluded included = .ok rules) :
    Filter.ofConfig? { extensions := [String.ofList e], excluded, included } =
      .ok ⟨[String.ofList e], rules⟩ := by
  rw [Filter.ofConfig?, h]

theorem keeps_of_eligible {e : List Char} {rules : PathRules} (he : extension? ns = some e)
    (h : rules.eligible (ScriptPath.ofNames ns).components = true) :
    Filter.keeps ⟨[String.ofList e], rules⟩ ns = true := by
  simp [Filter.keeps, Filter.hasExtension, he, Filter.eligible, h]

/-- Rules that prune a directory which lost blanks, and leave a file that kept them. -/
theorem exists_rules_of_blanks {init more : Components} {last blanks : List Char}
    (hblanks : blanks ≠ []) (hslash : ∀ c ∈ init ++ [last ++ blanks], '/' ∉ c) :
    ∃ excluded included rules, PathRules.ofTexts? excluded included = .ok rules ∧
      rules.prunes (init ++ [last]) = true ∧
      rules.eligible (init ++ (last ++ blanks) :: more) = true := by
  have hlast : last ++ blanks ≠ [] := by simp [hblanks]
  refine ⟨["*"], [Rule.quotedText (init ++ [last ++ blanks])],
    ⟨[Rule.everything], [Rule.quoted (init ++ [last ++ blanks])]⟩, ?_, ?_, ?_⟩
  · simp [PathRules.ofTexts?, PathRules.readAll?, Rule.ofText?_everything,
      Rule.ofText?_quotedText hlast hslash, Except.map]
  · have hreach :
        (Rule.quoted (init ++ [last ++ blanks])).reachesBelow (init ++ [last]) = false := by
      rw [Rule.reachesBelow_eq_agrees, Bool.eq_false_iff, Ne, Rule.agrees_quoted_iff]
      have hne : init ++ [last ++ blanks] ≠ init ++ [last] := by simp [hblanks]
      rintro (h | h)
      · exact hne (h.eq_of_length (by simp))
      · exact hne (h.eq_of_length (by simp)).symm
    simp [PathRules.prunes, Rule.covers_everything, hreach]
  · have hcovers : (Rule.quoted (init ++ [last ++ blanks])).covers
        (init ++ (last ++ blanks) :: more) = true := by
      rw [Rule.covers_quoted_iff]
      exact ⟨more, by simp⟩
    simp [PathRules.eligible, hcovers]

/-- Rules that prune a directory which is read as a dot, and leave a file that is not. -/
theorem exists_rules_of_dot {path : Components} (hs : ¬ [['.']] <+: path) :
    ∃ excluded included rules, PathRules.ofTexts? excluded included = .ok rules ∧
      rules.prunes [['.']] = true ∧ rules.eligible path = true := by
  have hread : Rule.ofText? (Rule.quotedText ([] ++ [['.']])) = .ok (Rule.quoted ([] ++ [['.']])) :=
    Rule.ofText?_quotedText (by simp) (by simp)
  rw [List.nil_append] at hread
  refine ⟨[Rule.quotedText [['.']]], [], ⟨[Rule.quoted [['.']]], []⟩, ?_, ?_, ?_⟩
  · simp [PathRules.ofTexts?, PathRules.readAll?, hread, Except.map]
  · have hcovers : (Rule.quoted [['.']]).covers [['.']] = true :=
      Rule.covers_quoted_iff.mpr List.prefix_rfl
    simp [PathRules.prunes, hcovers]
  · have hcovers : (Rule.quoted [['.']]).covers path = false :=
      Bool.eq_false_iff.mpr fun h => hs (Rule.covers_quoted_iff.mp h)
    simp [PathRules.eligible, hcovers]

/-- **A file that is not seen through is lost with some rules.** -/
theorem exists_lossy_config {dir rest : Names} (hdir : dir ≠ []) (hrest : rest ≠ [])
    (hext : (extension? (dir ++ rest)).isSome = true)
    (hs : ¬ (ScriptPath.ofNames dir).components <+: (ScriptPath.ofNames (dir ++ rest)).components) :
    ∃ (c : DiscoveryConfig) (f : Filter), Filter.ofConfig? c = .ok f ∧
      f.keeps (dir ++ rest) = true ∧ f.blocks [] (dir ++ rest) = true := by
  obtain ⟨e, he⟩ := Option.isSome_iff_exists.mp hext
  have hrules : ∃ excluded included rules, PathRules.ofTexts? excluded included = .ok rules ∧
      rules.prunes (ScriptPath.ofNames dir).components = true ∧
      rules.eligible (ScriptPath.ofNames (dir ++ rest)).components = true := by
    rcases ScriptPath.components_below hdir hrest with
      hp | ⟨init, last, blanks, more, hblanks, hd, hf⟩ | hd
    · exact absurd hp hs
    · rw [hd, hf]
      refine exists_rules_of_blanks hblanks fun c hc => ?_
      refine slash_not_mem_components (s := .ofNames (dir ++ rest)) ?_
      rw [hf, List.append_cons]
      exact List.mem_append_left more hc
    · rw [hd] at hs ⊢
      exact exists_rules_of_dot hs
  obtain ⟨excluded, included, rules, hread, hprunes, heligible⟩ := hrules
  exact ⟨_, _, ofConfig?_eq (e := e) hread, keeps_of_eligible he heligible,
    blocks_iff.mpr ⟨dir, rest, rfl, hdir, hrest, hprunes⟩⟩

/-- **Exactly when pruning loses nothing.**  For a tree, the scripts found are all scripts
that are kept and not ignored, whatever the configuration and the oracle, if and only if
each file with an extension is seen through. -/
theorem find_eq_scripts_iff (name : List Char) (es : List Entry) :
    (∀ (c : DiscoveryConfig) (f : Filter), Filter.ofConfig? c = .ok f →
      ∀ ignored : ScriptPath → Bool,
        find (m := Id) f (fun s => pure (ignored s)) (some (.directory name es)) =
          pure ((f.scripts es).filter fun s => !ignored s)) ↔
    ∀ ns ∈ Entry.walk es, (extension? ns).isSome = true → SeenThrough ns := by
  constructor
  · intro h ns hns hext dir rest he hdir hrest
    by_contra hs
    subst he
    obtain ⟨c, f, hc, hkeeps, hblocks⟩ := exists_lossy_config hdir hrest hext hs
    have hfound := h c f hc fun _ => false
    rw [find_eq] at hfound
    have hsub : ((Entry.walk es).filter (f.takes [])).Sublist ((Entry.walk es).filter f.keeps) :=
      List.monotone_filter_right _ fun ns htakes => (Bool.and_eq_true_iff.mp htakes).1
    have hlen : ((Entry.walk es).filter (f.takes [])).length =
        ((Entry.walk es).filter f.keeps).length := by
      simpa [Filter.scripts, List.filter_true] using congrArg List.length (Except.ok.inj hfound)
    -- Both lists are equal, but the lost file is in one of them only.
    have hmem : dir ++ rest ∈ (Entry.walk es).filter (f.takes []) := by
      rw [hsub.eq_of_length hlen]
      exact List.mem_filter.mpr ⟨hns, hkeeps⟩
    obtain ⟨-, htakes⟩ := List.mem_filter.mp hmem
    simp [Filter.takes, hblocks] at htakes
  · intro h c f _ ignored
    rw [find_eq, Filter.scripts]
    have hsame : (Entry.walk es).filter (f.takes []) = (Entry.walk es).filter f.keeps := by
      refine List.filter_congr fun ns hns => ?_
      cases hkeeps : f.keeps ns with
      | false => simp [Filter.takes, hkeeps]
      | true =>
        have hs := h ns hns (isSome_extension?_of_keeps hkeeps)
        simp [Filter.takes, hkeeps, blocks_eq_false_of_keeps hkeeps hs]
    rw [hsame]

/-- A rule for `vendor` keeps the walk out of a directory with one more blank in its name,
although the rule does not cover the script in it. -/
theorem find_ne_scripts_blank :
    ∃ f : Filter, Filter.ofConfig? ⟨["sh"], ["vendor"], [], "list"⟩ = .ok f ∧
      f.scripts [.directory "vendor ".toList [.file "a.sh".toList]] = [⟨"vendor /a.sh"⟩] ∧
      find (m := Id) f (fun _ => pure false)
        (some (.directory [] [.directory "vendor ".toList [.file "a.sh".toList]])) = pure [] :=
  ⟨⟨["sh"], ⟨[⟨["vendor".toList.map .char]⟩], []⟩⟩, by cbv, by cbv, by cbv⟩

end Discovery
end LintGate
