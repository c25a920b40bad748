import Mathlib.Data.List.Nodup
import LintGate.Proofs.Discovery.Walk

/-!
# Trees that a file system can hold

The names in such a tree are names that a file can have, and no two entries of a directory
share one.  So the walk comes to each file once.

## Main definitions

* `IsName` — the names a file can have.
* `Entry.IsReal`, `Entry.AreReal` — the trees that a file system can hold.

## Main results

* `Entry.AreReal.sortedAll` — putting entries in order keeps them real.
* `Entry.nodup_walk`, `Entry.isName_of_mem_walk` — the walk comes to each file once, by
  names that files can have.
-/

namespace LintGate

/-- A name that a file can have: not empty, with no slash and no U+0000 in it, and not one of
the two names that every directory holds. -/
structure IsName (n : List Char) : Prop where
  ne_nil : n ≠ []
  slash_not_mem : '/' ∉ n
  nul_not_mem : Char.ofNat 0 ∉ n
  ne_dot : n ≠ ['.']
  ne_dots : n ≠ ['.', '.']

instance (n : List Char) : Decidable (IsName n) :=
  decidable_of_iff
    (n ≠ [] ∧ '/' ∉ n ∧ Char.ofNat 0 ∉ n ∧ n ≠ ['.'] ∧ n ≠ ['.', '.'])
    ⟨fun ⟨h₁, h₂, h₃, h₄, h₅⟩ => ⟨h₁, h₂, h₃, h₄, h₅⟩,
      fun ⟨h₁, h₂, h₃, h₄, h₅⟩ => ⟨h₁, h₂, h₃, h₄, h₅⟩⟩

namespace Entry

mutual

/-- An entry that a file system can hold. -/
def IsReal : Entry → Prop
  | file n | other n => IsName n
  | directory n es => IsName n ∧ AreReal es

/-- Entries that a directory can hold: no two of them have the same name. -/
def AreReal : List Entry → Prop
  | [] => True
  | e :: es => e.IsReal ∧ e.name ∉ es.map name ∧ AreReal es

end

variable {e : Entry} {es : List Entry} {ns : Names}

@[simp] theorem name_sorted (e : Entry) : e.sorted.name = e.name := by
  cases e <;> rfl

theorem mem_map_name_insert (e : Entry) (es : List Entry) (n : List Char) :
    n ∈ (insert e es).map name ↔ n = e.name ∨ n ∈ es.map name := by
  induction es with
  | nil => simp [insert]
  | cons f fs ih =>
    rw [insert]
    split
    · rw [List.map_cons, List.mem_cons, ih, List.map_cons, List.mem_cons]
      exact or_left_comm
    · simp

theorem AreReal.insert (he : e.IsReal) (hne : e.name ∉ es.map name) (hes : AreReal es) :
    AreReal (Entry.insert e es) := by
  induction es with
  | nil => exact ⟨he, hne, trivial⟩
  | cons f fs ih =>
    obtain ⟨hf, hnf, hfs⟩ := hes
    rw [List.map_cons, List.mem_cons, not_or] at hne
    rw [Entry.insert]
    split
    · refine ⟨hf, ?_, ih hne.2 hfs⟩
      rw [mem_map_name_insert, not_or]
      exact ⟨Ne.symm hne.1, hnf⟩
    · refine ⟨he, ?_, hf, hnf, hfs⟩
      rw [List.map_cons, List.mem_cons, not_or]
      exact hne

theorem mem_map_name_sortedAll (es : List Entry) (n : List Char) :
    n ∈ (sortedAll es).map name ↔ n ∈ es.map name := by
  induction es with
  | nil => rfl
  | cons e es ih =>
    rw [sortedAll, mem_map_name_insert, ih, name_sorted, List.map_cons, List.mem_cons]

mutual

theorem IsReal.sorted : ∀ {e : Entry}, e.IsReal → e.sorted.IsReal
  | file _, h => h
  | other _, h => h
  | directory _ _, h => ⟨h.1, AreReal.sortedAll h.2⟩

/-- Putting entries in order keeps them real. -/
theorem AreReal.sortedAll : ∀ {es : List Entry}, AreReal es → AreReal (sortedAll es)
  | [], _ => trivial
  | e :: es, h => by
    rw [Entry.sortedAll]
    refine AreReal.insert (IsReal.sorted h.1) ?_ (AreReal.sortedAll h.2.2)
    rw [mem_map_name_sortedAll, name_sorted]
    exact h.2.1

end

mutual

theorem isName_of_mem_files : ∀ {e : Entry} {ns : Names}, e.IsReal → ns ∈ e.files →
    ∀ n ∈ ns, IsName n
  | file _, _, h, hns => by
    rw [List.mem_singleton.mp hns]
    exact List.forall_mem_singleton.mpr h
  | other _, _, _, hns => nomatch hns
  | directory _ _, _, h, hns => by
    rw [files] at hns
    split at hns
    · exact nomatch hns
    · obtain ⟨ms, hms, rfl⟩ := List.mem_map.mp hns
      exact List.forall_mem_cons.mpr ⟨h.1, isName_of_mem_filesAll h.2 hms⟩

theorem isName_of_mem_filesAll : ∀ {es : List Entry} {ns : Names}, AreReal es → ns ∈ filesAll es →
    ∀ n ∈ ns, IsName n
  | [], _, _, hns => nomatch hns
  | _ :: _, _, h, hns => by
    rw [filesAll, List.mem_append] at hns
    rcases hns with hns | hns
    · exact isName_of_mem_files h.1 hns
    · exact isName_of_mem_filesAll h.2.2 hns

end

theorem head?_of_mem_files (hns : ns ∈ e.files) : ns.head? = some e.name := by
  cases e with
  | file n =>
    rw [List.mem_singleton.mp hns]
    rfl
  | other n => exact absurd hns List.not_mem_nil
  | directory n es =>
    rw [files] at hns
    split at hns
    · exact absurd hns List.not_mem_nil
    · obtain ⟨ms, -, rfl⟩ := List.mem_map.mp hns
      rfl

theorem head?_of_mem_filesAll (hns : ns ∈ filesAll es) :
    ∃ n ∈ es.map name, ns.head? = some n := by
  induction es with
  | nil => exact absurd hns List.not_mem_nil
  | cons e es ih =>
    rw [filesAll, List.mem_append] at hns
    rcases hns with hns | hns
    · exact ⟨e.name, List.mem_cons_self, head?_of_mem_files hns⟩
    · obtain ⟨n, hn, hhead⟩ := ih hns
      exact ⟨n, List.mem_cons_of_mem _ hn, hhead⟩

mutual

theorem nodup_files : ∀ {e : Entry}, e.IsReal → e.files.Nodup
  | file n, _ => List.nodup_singleton [n]
  | other _, _ => List.nodup_nil
  | directory n es, h => by
    rw [files]
    split
    · exact List.nodup_nil
    · exact (nodup_filesAll h.2).map fun _ _ he => (List.cons.inj he).2

/-- No file comes twice, as the entries of a directory are told apart by their names. -/
theorem nodup_filesAll : ∀ {es : List Entry}, AreReal es → (filesAll es).Nodup
  | [], _ => List.nodup_nil
  | e :: es, h => by
    rw [filesAll]
    refine (nodup_files h.1).append (nodup_filesAll h.2.2) fun ns hns hns' => ?_
    -- A file of the first entry starts with its name, one of the others with another.
    obtain ⟨n, hn, hhead⟩ := head?_of_mem_filesAll hns'
    rw [head?_of_mem_files hns] at hhead
    exact h.2.1 (Option.some.inj hhead ▸ hn)

end

/-- **The walk comes to each file once.** -/
theorem nodup_walk (h : AreReal es) : (walk es).Nodup := nodup_filesAll h.sortedAll

theorem isName_of_mem_walk (h : AreReal es) (hns : ns ∈ walk es) : ∀ n ∈ ns, IsName n :=
  isName_of_mem_filesAll h.sortedAll hns

end Entry
end LintGate
