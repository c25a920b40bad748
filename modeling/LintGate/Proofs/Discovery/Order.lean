import LintGate.Proofs.Discovery.Pruning
import LintGate.Proofs.Discovery.Tree
import LintGate.Proofs.Text.Ordered

/-!
# The order of the walk

The walk comes to the files of a tree depth first, the entries of a directory in the order of
their names.  Seen from the root this is the order of their paths, name by name.  So the
candidates of a tree are determined by which files are candidates, and it does not matter in
which order a directory lists its entries.

## Main definitions

* `Entry.Holds` — names that lead to a file.
* `Entry.WalkedBefore` — the order of files by their paths, name by name.
* `Filter.IsCandidate` — which files of a tree are candidates.
* `Entry.Relists` — the same tree with the entries of its directories in another order.

## Main results

* `Entry.pairwise_walk` — the walk comes to the files in order.
* `mem_candidateFiles_iff` — the files that candidates stand for.
* `candidates_relisted` — **the order in which directories list their entries does not matter.**
-/

namespace LintGate

open Text

namespace Entry

/-- Names that lead from a directory with some entries to a file. -/
inductive Holds : List Entry → Names → Prop
  | file {n : List Char} {es : List Entry} (h : .file n ∈ es) : Holds es [n]
  | inside {n : List Char} {ds es : List Entry} {ns : Names} (h : .directory n ds ∈ es)
      (hns : Holds ds ns) : Holds es (n :: ns)

/-- The order of names. -/
def NameBefore (n m : List Char) : Prop := Before (String.ofList n) (String.ofList m)

/-- The order of files: the first name in which their paths differ decides. -/
def WalkedBefore : Names → Names → Prop := List.Lex NameBefore

variable {es : List Entry} {ns ms : Names}

theorem NameBefore.asymm {n m : List Char} (h : NameBefore n m) : ¬ NameBefore m n :=
  Before.asymm h

theorem WalkedBefore.asymm (h : WalkedBefore ns ms) : ¬ WalkedBefore ms ns := by
  induction h with
  | nil => exact nofun
  | @cons n ns ms h ih =>
    intro hback
    cases hback with
    | cons hback => exact ih hback
    | rel hback => exact hback.asymm hback
  | rel h =>
    intro hback
    cases hback with
    | cons hback => exact h.asymm h
    | rel hback => exact h.asymm hback

/-! ### The files of a tree -/

theorem Holds.ne_nil (h : Holds es ns) : ns ≠ [] := by
  cases h with
  | file h => exact List.cons_ne_nil _ _
  | inside h hns => exact List.cons_ne_nil _ _

theorem Holds.mono {ds : List Entry} (h : Holds es ns) (hsub : es ⊆ ds) : Holds ds ns := by
  cases h with
  | file h => exact .file (hsub h)
  | inside h hns => exact .inside (hsub h) hns

theorem holds_nil_iff : Holds [] ns ↔ False :=
  ⟨fun h => by cases h with
    | file h => exact List.not_mem_nil h
    | inside h hns => exact List.not_mem_nil h, False.elim⟩

theorem holds_cons_iff (e : Entry) (es : List Entry) :
    Holds (e :: es) ns ↔ Holds [e] ns ∨ Holds es ns := by
  constructor
  · intro h
    cases h with
    | file h =>
      rcases List.mem_cons.mp h with rfl | h
      · exact Or.inl (.file List.mem_cons_self)
      · exact Or.inr (.file h)
    | inside h hns =>
      rcases List.mem_cons.mp h with rfl | h
      · exact Or.inl (.inside List.mem_cons_self hns)
      · exact Or.inr (.inside h hns)
  · rintro (h | h)
    · exact h.mono (by simp)
    · exact h.mono (List.subset_cons_self e es)

theorem holds_directory_iff {n : List Char} {ds : List Entry} :
    Holds [.directory n ds] ns ↔ ∃ ms, ns = n :: ms ∧ Holds ds ms := by
  constructor
  · intro h
    cases h with
    | file h => exact absurd (List.mem_singleton.mp h) nofun
    | inside h hns =>
      cases List.mem_singleton.mp h
      exact ⟨_, rfl, hns⟩
  · rintro ⟨ms, rfl, h⟩
    exact .inside List.mem_cons_self h

mutual

/-- The files of an entry are those that it holds, but for those below a directory named
`.git`. -/
theorem mem_files_iff : ∀ {e : Entry} {ns : Names},
    ns ∈ e.files ↔ Holds [e] ns ∧ ".git".toList ∉ ns.dropLast
  | file n, ns => by
    rw [files, List.mem_singleton]
    constructor
    · rintro rfl
      exact ⟨.file List.mem_cons_self, List.not_mem_nil⟩
    · rintro ⟨h, -⟩
      cases h with
      | file h =>
        cases List.mem_singleton.mp h
        rfl
      | inside h hns => exact absurd (List.mem_singleton.mp h) nofun
  | other n, ns => by
    refine ⟨fun h => absurd h List.not_mem_nil, fun ⟨h, _⟩ => ?_⟩
    cases h with
    | file h => exact absurd (List.mem_singleton.mp h) nofun
    | inside h hns => exact absurd (List.mem_singleton.mp h) nofun
  | directory n ds, ns => by
    have hdrop {ms : Names} (hms : ms ≠ []) :
        ".git".toList ∉ (n :: ms).dropLast ↔ n ≠ ".git".toList ∧ ".git".toList ∉ ms.dropLast := by
      rw [List.dropLast_cons_of_ne_nil hms, List.mem_cons, not_or]
      exact and_congr_left' ne_comm
    rw [files, holds_directory_iff]
    split
    · next hgit =>
      refine ⟨fun h => absurd h List.not_mem_nil, ?_⟩
      rintro ⟨⟨ms, rfl, hms⟩, hns⟩
      exact absurd (by simpa using hgit) ((hdrop hms.ne_nil).mp hns).1
    · next hgit =>
      rw [List.mem_map]
      constructor
      · rintro ⟨ms, hms, rfl⟩
        obtain ⟨hholds, hms⟩ := mem_filesAll_iff.mp hms
        exact ⟨⟨ms, rfl, hholds⟩, (hdrop hholds.ne_nil).mpr ⟨by simpa using hgit, hms⟩⟩
      · rintro ⟨⟨ms, rfl, hms⟩, hns⟩
        exact ⟨ms, mem_filesAll_iff.mpr ⟨hms, ((hdrop hms.ne_nil).mp hns).2⟩, rfl⟩

theorem mem_filesAll_iff : ∀ {es : List Entry} {ns : Names},
    ns ∈ filesAll es ↔ Holds es ns ∧ ".git".toList ∉ ns.dropLast
  | [], ns => by
    rw [filesAll, holds_nil_iff, false_and]
    exact List.mem_nil_iff ns
  | e :: es, ns => by
    rw [filesAll, List.mem_append, mem_files_iff, mem_filesAll_iff, holds_cons_iff e es,
      or_and_right]

end

/-! ### Putting entries in order -/

theorem holds_insert_iff (e : Entry) (es : List Entry) :
    Holds (insert e es) ns ↔ Holds [e] ns ∨ Holds es ns := by
  induction es with
  | nil => rw [insert, holds_nil_iff, or_false]
  | cons d es ih =>
    rw [insert]
    split
    · rw [holds_cons_iff d, ih, holds_cons_iff d es, or_left_comm]
    · exact holds_cons_iff e (d :: es)

mutual

theorem holds_sorted_iff : ∀ {e : Entry} {ns : Names}, Holds [e.sorted] ns ↔ Holds [e] ns
  | file _, _ => Iff.rfl
  | other _, _ => Iff.rfl
  | directory n ds, ns => by
    rw [sorted, holds_directory_iff, holds_directory_iff]
    exact exists_congr fun ms => and_congr_right fun _ => holds_sortedAll_iff

/-- Putting entries in order does not change which files there are. -/
theorem holds_sortedAll_iff : ∀ {es : List Entry} {ns : Names},
    Holds (sortedAll es) ns ↔ Holds es ns
  | [], _ => Iff.rfl
  | e :: es, ns => by
    rw [sortedAll, holds_insert_iff, holds_sorted_iff, holds_sortedAll_iff, ← holds_cons_iff e es]

end

mutual

/-- An entry whose directories list their entries in order. -/
def IsSorted : Entry → Prop
  | file _ | other _ => True
  | directory _ ds => AreSorted ds

/-- Entries in order, each with its own entries in order. -/
def AreSorted : List Entry → Prop
  | [] => True
  | e :: es => e.IsSorted ∧ (∀ m ∈ es.map name, NameBefore e.name m) ∧ AreSorted es

end

/-- A sorted list stays sorted when an entry with a new name is put in. -/
theorem AreSorted.insert {e : Entry} (he : e.IsSorted) (hne : e.name ∉ es.map name)
    (hes : AreSorted es) : AreSorted (Entry.insert e es) := by
  induction es with
  | nil => exact ⟨he, fun m hm => absurd hm List.not_mem_nil, trivial⟩
  | cons d es ih =>
    obtain ⟨hd, hbefore, hrest⟩ := hes
    rw [List.map_cons, List.mem_cons, not_or] at hne
    rw [Entry.insert]
    split
    · next hde =>
      refine ⟨hd, fun m hm => ?_, ih hne.2 hrest⟩
      rcases (mem_map_name_insert e es m).mp hm with rfl | hm
      · exact hde
      · exact hbefore m hm
    · next hde =>
      -- The names are different, so the new one comes before all of them.
      have hed : NameBefore e.name d.name := by
        by_contra hed
        exact hne.1 (String.ofList_inj.mp (eq_of_not_before hed hde))
      refine ⟨he, fun m hm => ?_, hd, hbefore, hrest⟩
      rcases List.mem_cons.mp hm with rfl | hm
      · exact hed
      · exact Before.trans hed (hbefore m hm)

mutual

theorem IsReal.isSorted_sorted : ∀ {e : Entry}, e.IsReal → e.sorted.IsSorted
  | file _, _ => trivial
  | other _, _ => trivial
  | directory _ _, h => AreReal.areSorted_sortedAll h.2

/-- Entries with different names are in order once they were put in order. -/
theorem AreReal.areSorted_sortedAll : ∀ {es : List Entry}, AreReal es → AreSorted (sortedAll es)
  | [], _ => trivial
  | e :: es, h => by
    rw [Entry.sortedAll]
    refine AreSorted.insert (IsReal.isSorted_sorted h.1) ?_ (AreReal.areSorted_sortedAll h.2.2)
    rw [mem_map_name_sortedAll, name_sorted]
    exact h.2.1

end

mutual

theorem pairwise_files : ∀ {e : Entry}, e.IsSorted → e.files.Pairwise WalkedBefore
  | file n, _ => List.pairwise_singleton _ _
  | other _, _ => List.Pairwise.nil
  | directory n ds, h => by
    rw [files]
    split
    · exact List.Pairwise.nil
    · exact List.pairwise_map.mpr ((pairwise_filesAll h).imp .cons)

/-- Files of sorted entries are in order: within one entry by their further names, and between
two entries by the names of these. -/
theorem pairwise_filesAll : ∀ {es : List Entry}, AreSorted es →
    (filesAll es).Pairwise WalkedBefore
  | [], _ => List.Pairwise.nil
  | e :: es, h => by
    obtain ⟨he, hbefore, hes⟩ := h
    rw [filesAll, List.pairwise_append]
    refine ⟨pairwise_files he, pairwise_filesAll hes, fun ns hns ms hms => ?_⟩
    obtain ⟨m, hm, hhead⟩ := head?_of_mem_filesAll hms
    obtain ⟨ns', rfl⟩ := List.head?_eq_some_iff.mp (head?_of_mem_files hns)
    obtain ⟨ms', rfl⟩ := List.head?_eq_some_iff.mp hhead
    exact .rel (hbefore m hm)

end

/-- **The walk comes to the files in order.** -/
theorem pairwise_walk (h : AreReal es) : (walk es).Pairwise WalkedBefore :=
  pairwise_filesAll h.areSorted_sortedAll

theorem mem_walk_iff : ns ∈ walk es ↔ Holds es ns ∧ ".git".toList ∉ ns.dropLast := by
  rw [walk, mem_filesAll_iff, holds_sortedAll_iff]

/-! ### The same tree in another order -/

/-- The same trees, with the entries of their directories in another order. -/
inductive Relists : List Entry → List Entry → Prop
  | nil : Relists [] []
  | cons {es es' : List Entry} (e : Entry) (h : Relists es es') : Relists (e :: es) (e :: es')
  | swap (d e : Entry) (es : List Entry) : Relists (d :: e :: es) (e :: d :: es)
  | inside {ds ds' : List Entry} (n : List Char) (h : Relists ds ds') (es : List Entry) :
      Relists (.directory n ds :: es) (.directory n ds' :: es)
  | trans {es es' es'' : List Entry} (h : Relists es es') (h' : Relists es' es'') :
      Relists es es''

namespace Relists

variable {es' : List Entry}

theorem holds_iff (h : Relists es es') : Holds es' ns ↔ Holds es ns := by
  induction h generalizing ns with
  | nil => exact Iff.rfl
  | @cons es es' e h ih => rw [holds_cons_iff e es', ih, ← holds_cons_iff e es]
  | swap d e es =>
    rw [holds_cons_iff e (d :: es), holds_cons_iff d es, or_left_comm, ← holds_cons_iff e es,
      ← holds_cons_iff d (e :: es)]
  | @inside ds ds' n h es ih =>
    rw [holds_cons_iff _ es, holds_directory_iff, holds_cons_iff _ es, holds_directory_iff]
    simp only [ih]
  | trans h h' ih ih' => rw [ih', ih]

theorem mem_map_name_iff (h : Relists es es') {m : List Char} :
    m ∈ es'.map name ↔ m ∈ es.map name := by
  induction h with
  | nil => exact Iff.rfl
  | cons e h ih => rw [List.map_cons, List.mem_cons, ih, List.map_cons, List.mem_cons]
  | swap d e es => simp only [List.map_cons, List.mem_cons, or_left_comm]
  | inside n h es ih => exact Iff.rfl
  | trans h h' ih ih' => rw [ih', ih]

/-- The entries of a real directory are real in every order. -/
theorem areReal (h : Relists es es') (hes : AreReal es) : AreReal es' := by
  induction h with
  | nil => exact hes
  | cons e h ih => exact ⟨hes.1, mt h.mem_map_name_iff.mp hes.2.1, ih hes.2.2⟩
  | swap d e es =>
    obtain ⟨hd, hnd, he, hne, hes⟩ := hes
    rw [List.map_cons, List.mem_cons, not_or] at hnd
    refine ⟨he, ?_, hd, hnd.2, hes⟩
    rw [List.map_cons, List.mem_cons, not_or]
    exact ⟨Ne.symm hnd.1, hne⟩
  | inside n h es ih => exact ⟨⟨hes.1.1, ih hes.1.2⟩, hes.2⟩
  | trans h h' ih ih' => exact ih' (ih hes)

end Relists
end Entry

namespace Discovery

/-- The candidates among the files of a tree: they have an extension, the rules leave them, and
no directory on the way is named `.git` or pruned. -/
structure Filter.IsCandidate (f : Filter) (es : List Entry) (ns : Names) : Prop where
  holds : Entry.Holds es ns
  hasExtension : f.hasExtension (extension? ns) = true
  eligible : f.eligible (.ofNames ns) = true
  entered : ∀ dir n rest, ns = dir ++ n :: rest → rest ≠ [] →
    n ≠ ".git".toList ∧ f.rules.prunes (ScriptPath.ofNames (dir ++ [n])).components = false

/-- The files that candidates stand for, in the order of the walk. -/
def Filter.candidateFiles (f : Filter) (es : List Entry) : List Names :=
  (Entry.walk es).filter (f.takes [])

variable {f : Filter} {es es' : List Entry} {ns : Names}

theorem candidates_eq_map (name : List Char) (es : List Entry) :
    candidates f (.directory name es) = (f.candidateFiles es).map ScriptPath.ofNames :=
  candidates_eq name es

/-- No name before the last one of a path is `.git` if no directory on the way is. -/
theorem git_not_mem_iff :
    ".git".toList ∉ ns.dropLast ↔
      ∀ dir n rest, ns = dir ++ n :: rest → rest ≠ [] → n ≠ ".git".toList := by
  constructor
  · rintro h dir n rest rfl hrest rfl
    refine h ?_
    rw [List.dropLast_append_of_ne_nil (List.cons_ne_nil _ _), List.dropLast_cons_of_ne_nil hrest]
    simp
  · intro h hmem
    rcases List.eq_nil_or_concat ns with rfl | ⟨init, last, rfl⟩
    · exact absurd hmem List.not_mem_nil
    · rw [List.concat_eq_append, List.dropLast_concat] at hmem
      obtain ⟨dir, rest, rfl⟩ := List.append_of_mem hmem
      exact h dir _ (rest ++ [last]) (by simp) (by simp) rfl

/-- **The files that candidates stand for** are the candidates among the files of the tree. -/
theorem mem_candidateFiles_iff : ns ∈ f.candidateFiles es ↔ f.IsCandidate es ns := by
  rw [Filter.candidateFiles, List.mem_filter, Entry.mem_walk_iff, git_not_mem_iff, Filter.takes,
    Filter.keeps, Bool.and_eq_true, Bool.and_eq_true, Bool.not_eq_true', Bool.eq_false_iff]
  constructor
  · rintro ⟨⟨hholds, hgit⟩, ⟨hext, hel⟩, hblocks⟩
    refine ⟨hholds, hext, hel, fun dir n rest he hrest => ⟨hgit dir n rest he hrest, ?_⟩⟩
    refine Bool.eq_false_iff.mpr fun hp => hblocks (blocks_iff.mpr ⟨dir ++ [n], rest, ?_, ?_⟩)
    · rw [he, List.append_assoc]
      rfl
    · exact ⟨by simp, hrest, hp⟩
  · rintro ⟨hholds, hext, hel, hentered⟩
    refine ⟨⟨hholds, fun dir n rest he hrest => (hentered dir n rest he hrest).1⟩, ⟨hext, hel⟩, ?_⟩
    intro hb
    obtain ⟨dir, rest, he, hdir, hrest, hp⟩ := blocks_iff.mp hb
    obtain ⟨init, n, rfl⟩ := (List.eq_nil_or_concat dir).resolve_left hdir
    rw [List.concat_eq_append] at he hp
    have hentered := (hentered init n rest (by simpa using he) hrest).2
    exact absurd hp (Bool.eq_false_iff.mp hentered)

theorem pairwise_candidateFiles (hes : Entry.AreReal es) :
    (f.candidateFiles es).Pairwise Entry.WalkedBefore :=
  (Entry.pairwise_walk hes).filter _

/-- **The order in which directories list their entries does not matter**: the candidates are in
order, so it is enough to know which files are candidates. -/
theorem candidates_relisted (hes : Entry.AreReal es) (h : Entry.Relists es es')
    (name : List Char) :
    candidates f (.directory name es') = candidates f (.directory name es) := by
  have hsame : f.candidateFiles es' = f.candidateFiles es := by
    refine eq_of_mem_iff (fun _ _ h => h.asymm) (pairwise_candidateFiles (h.areReal hes))
      (pairwise_candidateFiles hes) fun ns => ?_
    rw [mem_candidateFiles_iff, mem_candidateFiles_iff]
    constructor
    · rintro ⟨hholds, hext, hel, hentered⟩
      exact ⟨h.holds_iff.mp hholds, hext, hel, hentered⟩
    · rintro ⟨hholds, hext, hel, hentered⟩
      exact ⟨h.holds_iff.mpr hholds, hext, hel, hentered⟩
  rw [candidates_eq_map, candidates_eq_map, hsame]

end Discovery
end LintGate
