import LintGate.Proofs.Json.RoundTrip
import LintGate.Proofs.Text.ByteOrder
import LintGate.Proofs.Text.Ordered
import LintGate.Report

/-!
# What a JSON report holds

A report is written as one document, and the document is read back as the value it was
written from.  So it holds what the report holds: the problems, each list in the order of its
bytes, and the number of scripts checked.

## Main results

* `Text.Before.encode_lt` — what comes before in a set comes before in bytes.
* `Report.toJson_eq_iff` — the JSON values of reports with other problems or another number
  of scripts differ.
* `Report.json_lossless` — **a report in JSON loses nothing.**
-/

namespace LintGate

open Text

theorem Text.Before.encode_lt {α : Type} [Textual α] {a b : α} (h : Before a b) :
    encode (Textual.text a).toList < encode (Textual.text b).toList :=
  encode_lt_iff.mpr (String.lt_iff.mp h)

/-- The members of an ordered set are in the order of their bytes. -/
theorem OrderedSet.pairwise_encode {α : Type} [Textual α] (s : OrderedSet α) :
    (s.toList.map fun a => encode (Textual.text a).toList).Pairwise (· < ·) :=
  List.pairwise_map.mpr (s.ordered.imp Before.encode_lt)

/-- The keys of an ordered table are in the order of their bytes. -/
theorem OrderedMap.pairwise_encode {α β : Type} [Textual α] (m : OrderedMap α β) :
    (m.entries.map fun e => encode (Textual.text e.1).toList).Pairwise (· < ·) :=
  List.pairwise_map.mpr (m.ordered.imp Before.encode_lt)

theorem Problems.isClean_iff {p : Problems} :
    p.isClean = true ↔ p.unexpectedFailures.entries = [] ∧ p.stalePasses.toList = [] ∧
      p.staleEntries.toList = [] := by
  simp [isClean, OrderedMap.isEmpty, OrderedSet.isEmpty, and_assoc]

namespace Report

/-- Sets of scripts are told apart by their arrays. -/
theorem scriptsJson_injective {s t : OrderedSet ScriptPath}
    (h : scriptsJson s = scriptsJson t) : s = t := by
  have hinj : Function.Injective fun e : ScriptPath => Json.text e.text := fun a b hab =>
    Textual.text_inj (Json.text.inj hab)
  have hlist : s.toList = t.toList := List.map_injective_iff.mpr hinj (Json.array.inj h)
  cases s
  cases t
  cases hlist
  rfl

/-- Tables of diagnostics are told apart by their fields. -/
theorem diagnosticsJson_injective {m n : OrderedMap ScriptPath String}
    (h : (m.entries.map fun e => (e.1.text, Json.text e.2)) =
      n.entries.map fun e => (e.1.text, Json.text e.2)) : m = n := by
  have hinj : Function.Injective fun e : ScriptPath × String => (e.1.text, Json.text e.2) := by
    intro a b hab
    obtain ⟨hkey, hvalue⟩ := Prod.mk.inj hab
    exact Prod.ext (Textual.text_inj hkey) (Json.text.inj hvalue)
  have hlist : m.entries = n.entries := List.map_injective_iff.mpr hinj h
  cases m
  cases n
  cases hlist
  rfl

/-- The JSON value of a report tells its problems and the number of scripts checked, and
nothing else. -/
theorem toJson_eq_iff {r r' : Report} :
    r.toJson = r'.toJson ↔ r.problems = r'.problems ∧ r.checked = r'.checked := by
  constructor
  · intro h
    simp only [toJson, Json.object.injEq, List.cons.injEq, Prod.mk.injEq, Json.number.injEq,
      true_and, and_true] at h
    obtain ⟨-, ⟨hchecked, -⟩, hfailures, hpasses, hentries⟩ := h
    refine ⟨?_, hchecked⟩
    have h1 := diagnosticsJson_injective hfailures
    have h2 := scriptsJson_injective hpasses
    have h3 := scriptsJson_injective hentries
    cases hp : r.problems
    cases hq : r'.problems
    rw [hp, hq] at h1 h2 h3
    cases h1
    cases h2
    cases h3
    rfl
  · rintro ⟨hproblems, hchecked⟩
    rw [toJson, toJson, hproblems, hchecked]

/-- **A report in JSON loses nothing.**  It is the text of one value and a line feed.  The
value has the diagnostic of each unexpected failure and the two lists of entries to remove,
all in the order of their bytes, with their sizes and the number of scripts checked, and it
says that the run passed if there are none.  Two reports are written alike only if they have
the same problems and the same number of scripts.  The standard error stays empty. -/
theorem json_lossless (r : Report) (colored : Bool) :
    (r.render .json colored).err = "" ∧
    (∃ (text : String) (passed : Bool),
      (r.render .json colored).out = text ++ "\n" ∧
      Json.ofText? text.toList = some (.object
        [("passed", .bool passed),
          ("counts", .object
            [("checked", .number r.checked),
              ("unexpected_failures", .number r.problems.unexpectedFailures.entries.length),
              ("stale_passes", .number r.problems.stalePasses.toList.length),
              ("stale_entries", .number r.problems.staleEntries.toList.length)]),
          ("unexpected_failures", .object
            (r.problems.unexpectedFailures.entries.map fun e => (e.1.text, .text e.2))),
          ("stale_passes", .array (r.problems.stalePasses.toList.map fun s => .text s.text)),
          ("stale_entries", .array (r.problems.staleEntries.toList.map fun s => .text s.text))]) ∧
      (passed = true ↔ r.problems.unexpectedFailures.entries = [] ∧
        r.problems.stalePasses.toList = [] ∧ r.problems.staleEntries.toList = [])) ∧
    (r.problems.unexpectedFailures.entries.map fun e => encode e.1.text.toList).Pairwise (· < ·) ∧
    (r.problems.stalePasses.toList.map fun s => encode s.text.toList).Pairwise (· < ·) ∧
    (r.problems.staleEntries.toList.map fun s => encode s.text.toList).Pairwise (· < ·) ∧
    ∀ (r' : Report) (colored' : Bool),
      (r'.render .json colored').out = (r.render .json colored).out ↔
        r'.problems = r.problems ∧ r'.checked = r.checked := by
  refine ⟨rfl, ⟨String.ofList (Json.pretty 0 r.toJson), r.problems.isClean, ?_, ?_,
    Problems.isClean_iff⟩, r.problems.unexpectedFailures.pairwise_encode,
    r.problems.stalePasses.pairwise_encode, r.problems.staleEntries.pairwise_encode,
    fun r' colored' => ?_⟩
  · exact String.ofList_append
  · rw [String.toList_ofList]
    exact Json.ofText?_pretty 0 r.toJson
  · refine Iff.trans ⟨Json.document_injective, fun h => ?_⟩ toJson_eq_iff
    rw [render, render, h]

end Report
end LintGate
