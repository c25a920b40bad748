import LintGate.Proofs.AllowList.Order
import LintGate.Proofs.Script.Spelling

/-!
# The spelling of a listed path

A path may be written with dots in front, with backslashes and with blanks around it.  All these
texts name the script that the path names, and so it does not matter in which of them a list or a
question spells it.  Only a path that starts with a blank is another script's behind dots.

## Main definitions

* `ScriptPath.Backslashed` — a path with backslashes for some of its slashes.
* `ScriptPath.Respells` — the texts that spell a path anew.

## Main results

* `ScriptPath.normalize_of_respells` — a path that is spelt anew has the form it had.
* `AllowList.parse_of_nonblankLines` — a file of one line is a list of one script.
* `AllowList.spelling_irrelevant` — **the spelling of a path matters neither in a question nor in
  a list.**
-/

namespace LintGate

open Text

namespace ScriptPath

/-! ### Paths that are spelt anew -/

/-- A path, with backslashes in the place of any of its slashes. -/
def Backslashed (path written : List Char) : Prop :=
  List.Forall₂ (fun c d => d = c ∨ (c = '/' ∧ d = '\\')) path written

instance (path written : List Char) : Decidable (Backslashed path written) :=
  inferInstanceAs (Decidable (List.Forall₂ _ path written))

/-- A text spells a path anew: dots are put in front of the path `n` times, backslashes in the
place of any slashes, and blanks around it all. -/
def Respells (n : Nat) (path text : List Char) : Prop :=
  ∃ before written after, (∀ c ∈ before, isBlank c = true) ∧ (∀ c ∈ after, isBlank c = true) ∧
    Backslashed (Path.dots n ++ path) written ∧ text = before ++ written ++ after

theorem Backslashed.refl (path : List Char) : Backslashed path path :=
  List.forall₂_same.mpr fun _ _ => Or.inl rfl

theorem Backslashed.map_slashed {path written : List Char} (h : Backslashed path written) :
    written.map slashed = path.map slashed := by
  induction h with
  | nil => rfl
  | cons hchar _ ih =>
    rw [List.map_cons, List.map_cons, ih]
    rcases hchar with rfl | ⟨rfl, rfl⟩
    · rfl
    · rfl

theorem map_slashed_dots (n : Nat) : (Path.dots n).map slashed = Path.dots n := by
  induction n with
  | zero => rfl
  | succ n ih =>
    rw [Path.dots_succ, List.map_cons, List.map_cons, ih]
    rfl

variable {n : Nat} {path text : List Char}

/-- A text that spells a path anew writes it, with slashes for its backslashes. -/
theorem Respells.spells (h : Respells n path text) (hstart : path.head?.any isBlank = false) :
    Spells (path.map slashed) text := by
  obtain ⟨before, written, after, hbefore, hafter, hwritten, rfl⟩ := h
  refine ⟨before, n, after, hbefore, hafter, ?_, fun hblank => ?_⟩
  · rw [List.map_append, List.map_append, map_slashed_of_blanks hbefore,
      map_slashed_of_blanks hafter, hwritten.map_slashed, List.map_append, map_slashed_dots]
  · have hhead : (path.map slashed).head?.any isBlank = path.head?.any isBlank := by
      rw [List.head?_map, Option.any_map]
      exact congrArg (Option.any · _) (funext isBlank_slashed)
    rw [hhead, hstart] at hblank
    cases hblank

/-- A path spells itself. -/
theorem Respells.refl (path : List Char) : Respells 0 path path :=
  ⟨[], path, [], fun _ h => absurd h List.not_mem_nil, fun _ h => absurd h List.not_mem_nil,
    Backslashed.refl path, by simp⟩

/-- A path that is spelt anew has the form it had. -/
theorem normalize_of_respells (h : Respells n path text)
    (hstart : path.head?.any isBlank = false) : normalize text = normalize path := by
  rw [normalize_of_spells (h.spells hstart),
    normalize_of_spells ((Respells.refl path).spells hstart)]

theorem ofText_of_respells {r s : String} (h : Respells n r.toList s.toList)
    (hstart : r.toList.head?.any isBlank = false) : ofText s = ofText r := by
  rw [ofText, ofText, normalize_of_respells h hstart]

end ScriptPath

namespace AllowList

/-! ### Lists of one line -/

/-- A file with one line that is not blank is a list of the script that the line names. -/
theorem parse_of_nonblankLines {content : String} {line : List Char}
    (h : nonblankLines content.toList = [line]) (path : String) :
    parse path content = .ok ⟨path, .ofList [ScriptPath.ofText (String.ofList line)]⟩ := by
  have hlines : entryLines content = [trimmed line] := by
    rw [← significantLines_eq_entryLines, significantLines_eq, h, List.map_singleton]
  have hascends : Ascends (entryLines content) := by
    rw [hlines]
    exact List.pairwise_singleton _ _
  rw [parse_of_ascends path hascends, hlines, List.map_singleton, ofText_trimmed]

/-- **The spelling of a path matters neither in a question nor in a list.**  Let a path not start
with a blank.  Each text that spells it anew, with any number of dots in front, names the script
that the path names, and the path of this script has no backslash in it and no dots in front.  So
every list gives one answer for all these texts; a list that was read answers that it contains the
script exactly if one of its lines writes the path.  And a file whose one line that is not blank
is any of these texts is read as the list of this script alone. -/
theorem spelling_irrelevant {r : String} (hstart : r.toList.head?.any isBlank = false) :
    (∀ n (s : String), ScriptPath.Respells n r.toList s.toList →
      ScriptPath.ofText s = ScriptPath.ofText r ∧
      '\\' ∉ (ScriptPath.ofText s).text.toList ∧
      ¬ ['.', '/'] <+: (ScriptPath.ofText s).text.toList ∧
      (∀ allowed : AllowList,
        allowed.contains (ScriptPath.ofText s) = allowed.contains (ScriptPath.ofText r)) ∧
      ∀ path content allowed, parse path content = .ok allowed →
        (allowed.contains (ScriptPath.ofText s) = true ↔ ∃ l ∈ entryLines content,
          ∃ form, ScriptPath.Spells form l.toList ∧ ScriptPath.Spells form r.toList)) ∧
    ∀ n line content path, ScriptPath.Respells n r.toList line →
      nonblankLines content.toList = [line] →
      parse path content = .ok ⟨path, .ofList [ScriptPath.ofText r]⟩ := by
  constructor
  · intro n s hs
    have hname := ScriptPath.ofText_of_respells hs hstart
    have hform : (ScriptPath.ofText s).text.toList = ScriptPath.normalize s.toList :=
      String.toList_ofList
    refine ⟨hname, ?_, ?_, fun allowed => by rw [hname], fun path content allowed hread => ?_⟩
    · rw [hform]
      exact ScriptPath.backslash_not_mem_normalize _
    · rintro ⟨rest, hrest⟩
      rw [hform, ScriptPath.normalize] at hrest
      exact Path.dropDots_ne _ rest hrest.symm
    · rw [contains_iff_of_parse hread, hname]
      simp only [ScriptPath.ofText_eq_iff]
  · intro n line content path hline hcontent
    have hname : ScriptPath.ofText (String.ofList line) = ScriptPath.ofText r :=
      ScriptPath.ofText_of_respells (by rwa [String.toList_ofList]) hstart
    rw [parse_of_nonblankLines hcontent, hname]

/-- Dots, backslashes and blanks, in a question and on the one line of a list. -/
theorem spelling_irrelevant_backslashes :
    "hack/b c.sh".toList.head?.any isBlank = false ∧
    ScriptPath.Respells 2 "hack/b c.sh".toList " .\\./hack\\b c.sh\t".toList ∧
    ScriptPath.ofText " .\\./hack\\b c.sh\t" = ⟨"hack/b c.sh"⟩ ∧
    ScriptPath.Respells 1 "hack/b c.sh".toList ".\\hack/b c.sh \r".toList ∧
    parse "list" "\r\n.\\hack/b c.sh \r\n" = .ok ⟨"list", .ofList [⟨"hack/b c.sh"⟩]⟩ := by
  have hstart : "hack/b c.sh".toList.head?.any isBlank = false := by decide
  have hname : ScriptPath.ofText "hack/b c.sh" = ⟨"hack/b c.sh"⟩ := by decide
  obtain ⟨hspelt, hread⟩ := spelling_irrelevant hstart
  have hquestion : ScriptPath.Respells 2 "hack/b c.sh".toList " .\\./hack\\b c.sh\t".toList :=
    ⟨[' '], ".\\./hack\\b c.sh".toList, ['\t'], by simp [isBlank], by simp [isBlank], by decide,
      rfl⟩
  have hline : ScriptPath.Respells 1 "hack/b c.sh".toList ".\\hack/b c.sh \r".toList :=
    ⟨[], ".\\hack/b c.sh".toList, [' ', '\r'], by simp, by simp [isBlank], by decide, rfl⟩
  refine ⟨hstart, hquestion, ?_, hline, ?_⟩
  · rw [(hspelt 2 _ hquestion).1, hname]
  · rw [hread 1 _ _ "list" hline (by cbv), hname]

end AllowList
end LintGate
