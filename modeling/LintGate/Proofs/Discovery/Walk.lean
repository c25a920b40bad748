import LintGate.Discovery

/-!
# The walk as a list of files

The walk is read as the list of all files of a tree, in the order of the walk, each with
the names that lead to it, out of which the filter takes some.

## Main definitions

* `Entry.files`, `Entry.walk` — the files of an entry, and of the tree below a root.
* `Filter.keeps`, `Filter.blocks` — what the filter says of a file, and of the directories
  on the way to it.

## Main results

* `visit_eq`, `candidates_eq` — the candidates are the files that are kept and not blocked.
* `find_eq` — the scripts that are found, if the oracle never faults.
-/

namespace LintGate

open Text

/-- A file or directory by the names that lead to it. -/
abbrev Names := List (List Char)

namespace Entry

mutual

/-- The files of an entry in order, each by the names that lead to it from the directory
of the entry.  What is below a directory named `.git` is left out. -/
def files : Entry → List Names
  | file n => [[n]]
  | other _ => []
  | directory n es => if n == ".git".toList then [] else (filesAll es).map (n :: ·)

/-- The files of the entries of a directory. -/
def filesAll : List Entry → List Names
  | [] => []
  | e :: es => e.files ++ filesAll es

end

/-- The files below a root whose entries are given, in the order of the walk. -/
def walk (es : List Entry) : List Names := filesAll (sortedAll es)

mutual

theorem ne_nil_of_mem_files {ns : Names} : ∀ {e : Entry}, ns ∈ e.files → ns ≠ []
  | file n, h => by
    rw [List.mem_singleton.mp h]
    exact List.cons_ne_nil n []
  | other _, h => nomatch h
  | directory n es, h => by
    rw [files] at h
    split at h
    · exact nomatch h
    · obtain ⟨ms, -, rfl⟩ := List.mem_map.mp h
      exact List.cons_ne_nil n ms

theorem ne_nil_of_mem_filesAll {ns : Names} : ∀ {es : List Entry}, ns ∈ filesAll es → ns ≠ []
  | [], h => nomatch h
  | e :: es, h => by
    rw [filesAll, List.mem_append] at h
    rcases h with h | h
    · exact ne_nil_of_mem_files h
    · exact ne_nil_of_mem_filesAll h

end

end Entry

namespace Discovery

/-- The extension of a file. -/
def extension? (ns : Names) : Option (List Char) := (ns.getLast?).bind Path.nameExtension?

namespace Filter

/-- Whether the filter keeps a file: by its extension and the rules. -/
def keeps (f : Filter) (ns : Names) : Bool :=
  f.hasExtension (extension? ns) && f.eligible (.ofNames ns)

/-- Whether the rules prune a directory on the way from a directory to a file. -/
def blocks (f : Filter) (trail : Names) : Names → Bool
  | [] => false
  | n :: ns =>
    (!ns.isEmpty && f.rules.prunes (ScriptPath.ofNames (trail ++ [n])).components) ||
      blocks f (trail ++ [n]) ns

/-- The files that the walk comes to and the filter keeps. -/
def takes (f : Filter) (trail ns : Names) : Bool := f.keeps (trail ++ ns) && !f.blocks trail ns

end Filter

variable {f : Filter}

theorem takes_cons {trail ns : Names} {n : List Char} (hns : ns ≠ []) :
    f.takes trail (n :: ns) =
      (!f.rules.prunes (ScriptPath.ofNames (trail ++ [n])).components &&
        f.takes (trail ++ [n]) ns) := by
  have hne : ns.isEmpty = false := by simpa using hns
  unfold Filter.takes
  rw [Filter.blocks, hne, List.append_cons]
  cases f.rules.prunes (ScriptPath.ofNames (trail ++ [n])).components
  · simp
  · simp

mutual

/-- **The candidates of an entry** are its files that are kept and not blocked. -/
theorem visit_eq : ∀ (trail : Names) (e : Entry),
    visit f trail e = (e.files.filter (f.takes trail)).map fun ns => .ofNames (trail ++ ns)
  | trail, .file n => by
    have hlast : extension? (trail ++ [n]) = Path.nameExtension? n := by simp [extension?]
    have htakes : f.takes trail [n] = (f.hasExtension (Path.nameExtension? n) &&
        f.eligible (.ofNames (trail ++ [n]))) := by
      simp [Filter.takes, Filter.keeps, Filter.blocks, hlast]
    rw [visit, Entry.files, List.filter_cons, List.filter_nil, htakes]
    cases f.hasExtension (Path.nameExtension? n) && f.eligible (.ofNames (trail ++ [n])) <;> rfl
  | _, .other _ => rfl
  | trail, .directory n es => by
    rw [visit, Entry.files, Filter.skips]
    cases n == ".git".toList with
    | true => rfl
    | false =>
      -- The files below are tested with the directory on their trail.
      have hfilter : ((Entry.filesAll es).map (n :: ·)).filter (f.takes trail) =
          ((Entry.filesAll es).filter fun ns =>
            !f.rules.prunes (ScriptPath.ofNames (trail ++ [n])).components &&
              f.takes (trail ++ [n]) ns).map (n :: ·) := by
        rw [List.filter_map]
        refine congrArg _ (List.filter_congr fun ns hns => ?_)
        exact takes_cons (Entry.ne_nil_of_mem_filesAll hns)
      rw [Bool.false_or, if_neg Bool.false_ne_true, hfilter, visitAll_eq (trail ++ [n]) es]
      cases f.rules.prunes (ScriptPath.ofNames (trail ++ [n])).components with
      | true => simp
      | false => simp [Function.comp_def]

theorem visitAll_eq : ∀ (trail : Names) (es : List Entry),
    visitAll f trail es =
      ((Entry.filesAll es).filter (f.takes trail)).map fun ns => .ofNames (trail ++ ns)
  | _, [] => rfl
  | trail, e :: es => by
    rw [visitAll, Entry.filesAll, visit_eq trail e, visitAll_eq trail es, List.filter_append,
      List.map_append]

end

/-- **The candidates of a tree** are its files that are kept and not blocked, in order. -/
theorem candidates_eq (name : List Char) (es : List Entry) :
    candidates f (.directory name es) =
      ((Entry.walk es).filter (f.takes [])).map ScriptPath.ofNames :=
  visitAll_eq [] (Entry.sortedAll es)

/-- An oracle that never faults leaves the scripts that it does not ignore. -/
theorem sift_pure {m : Type → Type} [Monad m] [LawfulMonad m] (ignored : ScriptPath → Bool)
    (ss : List ScriptPath) :
    sift (m := m) (fun s => pure (ignored s)) ss = pure (ss.filter fun s => !ignored s) := by
  induction ss with
  | nil => rfl
  | cons s ss ih =>
    rw [sift, pure_bind, List.filter_cons, ih]
    cases ignored s
    · simp
    · simp

/-- The scripts that are found, if the oracle never faults. -/
theorem find_eq (f : Filter) (name : List Char) (es : List Entry) (ignored : ScriptPath → Bool) :
    find (m := Id) f (fun s => pure (ignored s)) (some (.directory name es)) =
      pure ((((Entry.walk es).filter (f.takes [])).map ScriptPath.ofNames).filter
        fun s => !ignored s) := by
  rw [find, Option.map_some, Option.getD_some, candidates_eq, sift_pure]

end Discovery
end LintGate
