import LintGate.Proofs.AllowList.Order
import LintGate.Proofs.Script.Spelling

/-!
# Scripts that are listed twice

The lines of an allow-list are compared as they are written.  So no line is repeated in a list,
but a script is listed twice by two lines that write its path in two ways, and counts once.

## Main definitions

* `AllowList.ListsOnce` — no two lines write one path.

## Main results

* `AllowList.listsOnce_iff_nodup` — no two lines write one path if they name different scripts.
* `AllowList.size_eq_length_iff` — **exactly when a list has as many scripts as lines.**
-/

namespace LintGate
namespace AllowList

open Text

variable {path content : String} {allowed : AllowList}

/-- No two lines that count write one path. -/
def ListsOnce (content : String) : Prop :=
  (entryLines content).Pairwise fun a b =>
    ¬ ∃ path, ScriptPath.Spells path a.toList ∧ ScriptPath.Spells path b.toList

theorem listsOnce_iff_nodup :
    ListsOnce content ↔ ((entryLines content).map ScriptPath.ofText).Nodup := by
  rw [ListsOnce, List.Nodup, List.pairwise_map]
  simp only [ne_eq, ScriptPath.ofText_eq_iff]

theorem Ascends.nodup {ls : List String} (h : Ascends ls) : ls.Nodup := by
  refine (List.pairwise_map.mp h).imp ?_
  rintro a b hlt rfl
  exact List.lt_irrefl _ hlt

/-- **Exactly when a list has as many scripts as lines.**  No line of a list is repeated, and
there are no more scripts than lines.  The lines name different scripts, and there are as many
scripts as lines, exactly if no two of them write one path. -/
theorem size_eq_length_iff (h : parse path content = .ok allowed) :
    (entryLines content).Nodup ∧ allowed.size ≤ (entryLines content).length ∧
    ((∀ a ∈ entryLines content, ∀ b ∈ entryLines content,
      ScriptPath.ofText a = ScriptPath.ofText b → a = b) ↔ ListsOnce content) ∧
    (allowed.size = (entryLines content).length ↔ ListsOnce content) := by
  obtain ⟨hascends, hallowed⟩ := of_parse_eq_ok h
  have hsize : allowed.size = (canonical ((entryLines content).map ScriptPath.ofText)).length := by
    rw [hallowed]
    rfl
  have hlen : ((entryLines content).map ScriptPath.ofText).length = (entryLines content).length :=
    List.length_map _
  refine ⟨hascends.nodup, ?_, ?_, ?_⟩
  · rw [hsize, ← hlen]
    exact length_canonical_le _
  · rw [listsOnce_iff_nodup, List.nodup_map_iff_inj_on hascends.nodup]
  · rw [hsize, ← hlen, length_canonical_eq_iff, listsOnce_iff_nodup]

/-- Dots in front of one of two lines, and a blank line between them. -/
theorem size_eq_length_dots :
    parse "list" "./b.sh\n\na.sh \n" = .ok ⟨"list", .ofList [⟨"a.sh"⟩, ⟨"b.sh"⟩]⟩ ∧
    entryLines "./b.sh\n\na.sh \n" = ["./b.sh", "a.sh"] ∧ ListsOnce "./b.sh\n\na.sh \n" := by
  have hread : parse "list" "./b.sh\n\na.sh \n" = .ok ⟨"list", .ofList [⟨"a.sh"⟩, ⟨"b.sh"⟩]⟩ := by
    rfl
  have hlines : entryLines "./b.sh\n\na.sh \n" = ["./b.sh", "a.sh"] := rfl
  obtain ⟨-, -, -, hsize⟩ := size_eq_length_iff hread
  refine ⟨hread, hlines, hsize.mp ?_⟩
  rw [hlines]
  decide

/-- Dots in front of one of two lines that name one script: the list is read, and has one script
on two lines. -/
theorem size_ne_length_dots :
    parse "list" "./a.sh\na.sh\n" = .ok ⟨"list", .ofList [⟨"a.sh"⟩]⟩ ∧
    entryLines "./a.sh\na.sh\n" = ["./a.sh", "a.sh"] ∧
    ScriptPath.ofText "./a.sh" = ScriptPath.ofText "a.sh" ∧
    AllowList.size ⟨"list", .ofList [⟨"a.sh"⟩]⟩ = 1 :=
  ⟨rfl, by decide +kernel, by decide, by decide⟩

end AllowList
end LintGate
