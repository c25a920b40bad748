import LintGate.Proofs.Discovery.Tree
import LintGate.Proofs.Script

/-!
# Which file a found script stands for

A script is found under a path that was brought to its form.  It stands for the file it was
found at if the form is the path the file had already.

## Main definitions

* `filePath` — the path of a file, seen from the root.
* `IsPlain` — the files whose path is in its form.
* `Filter.kept` — the files that scripts are found at.

## Main results

* `under_ofNames_eq_iff` — a script stands for its file exactly if the file is plain.
* `find_identifies_iff` — exactly when scripts identify their files.
-/

namespace LintGate
namespace Discovery

open Text

/-- The path of the file that is reached from a directory by some names. -/
def filePath (root : String) (ns : Names) : String :=
  ns.foldl (fun p n => Path.join p (String.ofList n)) root

/-- The names have no backslash in them, the first starts with no blank, and the last ends
with none. -/
def IsPlain (ns : Names) : Prop :=
  '\\' ∉ joinWith ['/'] ns ∧ (joinWith ['/'] ns).head?.any isBlank = false ∧
    (joinWith ['/'] ns).getLast?.any isBlank = false

instance : DecidablePred IsPlain := fun _ => inferInstanceAs (Decidable (_ ∧ _ ∧ _))

/-- The files that scripts are found at: the walk comes to them, the filter keeps them, and
they are not ignored. -/
def Filter.kept (f : Filter) (ignored : ScriptPath → Bool) (es : List Entry) : List Names :=
  (Entry.walk es).filter fun ns => f.takes [] ns && !ignored (.ofNames ns)

/-- The scripts that are found, if the oracle never faults, are those of the files that are
kept. -/
theorem find_eq_kept (f : Filter) (ignored : ScriptPath → Bool) (name : List Char)
    (es : List Entry) :
    find (m := Id) f (fun s => pure (ignored s)) (some (.directory name es)) =
      pure ((f.kept ignored es).map ScriptPath.ofNames) := by
  have hkept : f.kept ignored es = ((Entry.walk es).filter (f.takes [])).filter
      fun ns => !ignored (.ofNames ns) := by
    rw [List.filter_filter]
    exact List.filter_congr fun _ _ => Bool.and_comm _ _
  rw [find_eq, List.filter_map, hkept]
  rfl

variable {ns : Names}

/-- A path starts with its first name. -/
theorem exists_joinWith_cons (n : List Char) (ns : Names) :
    ∃ more, joinWith ['/'] (n :: ns) = n ++ more := by
  cases ns with
  | nil => exact ⟨[], (List.append_nil n).symm⟩
  | cons m ms => exact ⟨'/' :: joinWith ['/'] (m :: ms), by simp⟩

/-- A name, and so a path of names, is not absolute. -/
theorem isAbsolute_append {n : List Char} (hn : IsName n) (more : List Char) :
    Path.isAbsolute (n ++ more) = false := by
  obtain ⟨c, cs, rfl⟩ := List.exists_cons_of_ne_nil hn.ne_nil
  have hc : c ≠ '/' := fun he => hn.slash_not_mem (he ▸ List.mem_cons_self)
  simpa [Path.isAbsolute] using hc

theorem isAbsolute_joinWith (hne : ns ≠ []) (hns : ∀ n ∈ ns, IsName n) :
    Path.isAbsolute (joinWith ['/'] ns) = false := by
  obtain ⟨n, ns, rfl⟩ := List.exists_cons_of_ne_nil hne
  obtain ⟨more, hmore⟩ := exists_joinWith_cons n ns
  rw [hmore]
  exact isAbsolute_append (hns n List.mem_cons_self) more

/-- A path of names does not start with a dot and a slash. -/
theorem joinWith_ne_dots (hns : ∀ n ∈ ns, IsName n) (rest : List Char) :
    joinWith ['/'] ns ≠ '.' :: '/' :: rest := by
  cases ns with
  | nil => exact nofun
  | cons n ns =>
    have hn := hns n List.mem_cons_self
    obtain ⟨more, hmore⟩ := exists_joinWith_cons n ns
    rw [hmore]
    intro he
    match n, hn with
    | [], hn => exact hn.ne_nil rfl
    | [c], hn => exact hn.ne_dot (by rw [(List.cons.inj he).1])
    | c :: d :: _, hn =>
      have hd : d = '/' := (List.cons.inj (List.cons.inj he).2).1
      exact hn.slash_not_mem (by simp [hd])

/-- A path of names ends with a name, so with no slash. -/
theorem getLast?_joinWith_ne (hns : ∀ n ∈ ns, IsName n) :
    (joinWith ['/'] ns).getLast? ≠ some '/' := by
  intro he
  rcases List.eq_nil_or_concat ns with rfl | ⟨init, n, rfl⟩
  · exact nomatch he
  · rw [List.concat_eq_append] at he hns
    have hn := hns n (by simp)
    have hlast : (joinWith ['/'] (init ++ [n])).getLast? = n.getLast? := by
      cases init with
      | nil => rfl
      | cons m init =>
        rw [joinWith_append (by simp) (by simp), joinWith_singleton, List.getLast?_append,
          Option.or_of_isSome (List.getLast?_isSome.mpr hn.ne_nil)]
    rw [hlast] at he
    exact hn.slash_not_mem (List.mem_of_getLast? he)

/-- The path of a file, joined name by name, is the row of its names seen from the root. -/
theorem filePath_eq (root : String) (hne : ns ≠ []) (hns : ∀ n ∈ ns, IsName n) :
    filePath root ns = Path.join root (String.ofList (joinWith ['/'] ns)) := by
  induction ns using List.reverseRecOn with
  | nil => exact absurd rfl hne
  | append_singleton init n ih =>
    have hinit (m : List Char) (hm : m ∈ init) : IsName m := hns m (List.mem_append_left _ hm)
    have hstep :
        filePath root (init ++ [n]) = Path.join (filePath root init) (String.ofList n) := by
      simp [filePath]
    cases init with
    | nil => exact hstep
    | cons m init =>
      have hcons : m :: init ≠ [] := List.cons_ne_nil m init
      have hn : Path.isAbsolute n = false := by
        simpa using isAbsolute_append (hns n (by simp)) []
      have hjoined : joinWith ['/'] (m :: init) ≠ [] := by
        obtain ⟨more, hmore⟩ := exists_joinWith_cons m init
        simp [hmore, (hinit m List.mem_cons_self).ne_nil]
      rw [hstep, ih hcons hinit, joinWith_append hcons (by simp), joinWith_singleton]
      simp only [Path.join, String.toList_ofList]
      rw [Path.joinChars_joinChars (isAbsolute_joinWith hcons hinit) hjoined
        (getLast?_joinWith_ne hinit) hn, List.append_assoc]
      rfl

/-- **A script stands for the file it was found at** exactly if the file is plain. -/
theorem under_ofNames_eq_iff (root : String) (hne : ns ≠ []) (hns : ∀ n ∈ ns, IsName n) :
    (ScriptPath.ofNames ns).under root = filePath root ns ↔ IsPlain ns := by
  rw [filePath_eq root hne hns, IsPlain,
    ← ScriptPath.normalize_eq_self_iff (joinWith_ne_dots hns)]
  constructor
  · intro h
    have hlen : (ScriptPath.normalize (joinWith ['/'] ns)).length ≤ (joinWith ['/'] ns).length :=
      Nat.le_trans (ScriptPath.length_normalize_le _) (strip_sublist _).length_le
    have hjoin : Path.joinChars root.toList (ScriptPath.normalize (joinWith ['/'] ns)) =
        Path.joinChars root.toList (joinWith ['/'] ns) := by
      simpa [ScriptPath.under, ScriptPath.ofNames, Path.join] using congrArg String.toList h
    exact Path.joinChars_inj (isAbsolute_joinWith hne hns) hlen hjoin
  · intro h
    rw [ScriptPath.under, ScriptPath.ofNames, h]

/-- Plain files are told apart by their scripts. -/
theorem ofNames_inj {ms : Names} (hne : ns ≠ []) (hns : ∀ n ∈ ns, IsName n) (hne' : ms ≠ [])
    (hms : ∀ n ∈ ms, IsName n) (hplain : IsPlain ns) (hplain' : IsPlain ms)
    (h : ScriptPath.ofNames ns = ScriptPath.ofNames ms) : ns = ms := by
  have hn := (ScriptPath.normalize_eq_self_iff (joinWith_ne_dots hns)).mpr hplain
  have hm := (ScriptPath.normalize_eq_self_iff (joinWith_ne_dots hms)).mpr hplain'
  have hjoin : joinWith ['/'] ns = joinWith ['/'] ms := by
    have htext := congrArg (fun s : ScriptPath => s.text.toList) h
    simpa [ScriptPath.ofNames, hn, hm] using htext
  exact joinWith_inj hne hne' (fun n h => (hns n h).slash_not_mem)
    (fun n h => (hms n h).slash_not_mem) hjoin

/-- **Exactly when scripts identify their files.**  For a tree that a file system can hold,
the scripts found are all different and each stands for the file it was found at, if and
only if each of these files is plain. -/
theorem find_identifies_iff (f : Filter) (ignored : ScriptPath → Bool) (root : String)
    (name : List Char) {es : List Entry} (hes : Entry.AreReal es) :
    find (m := Id) f (fun s => pure (ignored s)) (some (.directory name es)) =
      pure ((f.kept ignored es).map ScriptPath.ofNames) ∧
    ((((f.kept ignored es).map ScriptPath.ofNames).Nodup ∧
        ∀ ns ∈ f.kept ignored es, (ScriptPath.ofNames ns).under root = filePath root ns) ↔
      ∀ ns ∈ f.kept ignored es, IsPlain ns) := by
  have hwalk {ns : Names} (h : ns ∈ f.kept ignored es) : ns ∈ Entry.walk es :=
    (List.mem_filter.mp h).1
  have hnames {ns : Names} (h : ns ∈ f.kept ignored es) : ∀ n ∈ ns, IsName n :=
    Entry.isName_of_mem_walk hes (hwalk h)
  have hne {ns : Names} (h : ns ∈ f.kept ignored es) : ns ≠ [] :=
    Entry.ne_nil_of_mem_filesAll (hwalk h)
  refine ⟨?_, fun ⟨_, h⟩ ns hns => ?_, fun h => ⟨?_, fun ns hns => ?_⟩⟩
  · exact find_eq_kept f ignored name es
  · exact (under_ofNames_eq_iff root (hne hns) (hnames hns)).mp (h ns hns)
  · refine List.Nodup.map_on (fun ns hns ms hms he => ?_) ((Entry.nodup_walk hes).filter _)
    exact ofNames_inj (hne hns) (hnames hns) (hne hms) (hnames hms) (h ns hns) (h ms hms) he
  · exact (under_ofNames_eq_iff root (hne hns) (hnames hns)).mpr (h ns hns)

/-- Plain files, one of them below a directory. -/
theorem find_identifies_plain :
    Entry.AreReal [.directory "lib".toList [.file "a.sh".toList], .file "a b.sh".toList] ∧
    ((Filter.kept ⟨["sh"], ⟨[], []⟩⟩ (fun _ => false)
      [.directory "lib".toList [.file "a.sh".toList], .file "a b.sh".toList]).map
        ScriptPath.ofNames).Nodup ∧
    (ScriptPath.ofNames ["lib".toList, "a.sh".toList]).under "/r" =
      filePath "/r" ["lib".toList, "a.sh".toList] := by
  have hlib : IsName "lib".toList := by decide
  have ha : IsName "a.sh".toList := by decide
  have hab : IsName "a b.sh".toList := by decide
  have hes : Entry.AreReal
      [.directory "lib".toList [.file "a.sh".toList], .file "a b.sh".toList] :=
    ⟨⟨hlib, ha, by decide, trivial⟩, by decide, hab, by decide, trivial⟩
  have hkept : Filter.kept ⟨["sh"], ⟨[], []⟩⟩ (fun _ => false)
      [.directory "lib".toList [.file "a.sh".toList], .file "a b.sh".toList] =
        [["a b.sh".toList], ["lib".toList, "a.sh".toList]] := by decide +kernel
  obtain ⟨-, hiff⟩ := find_identifies_iff ⟨["sh"], ⟨[], []⟩⟩ (fun _ => false) "/r" [] hes
  have hplain : ∀ ns ∈ [["a b.sh".toList], ["lib".toList, "a.sh".toList]], IsPlain ns := by decide
  rw [hkept] at hiff ⊢
  obtain ⟨hnodup, hunder⟩ := hiff.mpr hplain
  exact ⟨hes, hnodup, hunder _ (by simp)⟩

/-- Two files, of which one has a blank in front of the name of the other. -/
theorem find_identifies_not_blank :
    ∃ f : Filter, Filter.ofConfig? ⟨["sh"], [], [], "list"⟩ = .ok f ∧
      find (m := Id) f (fun _ => pure false)
        (some (.directory [] [.file " a.sh".toList, .file "a.sh".toList])) =
          pure [⟨"a.sh"⟩, ⟨"a.sh"⟩] ∧
      f.kept (fun _ => false) [.file " a.sh".toList, .file "a.sh".toList] =
        [[" a.sh".toList], ["a.sh".toList]] ∧
      (ScriptPath.ofNames [" a.sh".toList]).under "/r" ≠ filePath "/r" [" a.sh".toList] :=
  ⟨⟨["sh"], ⟨[], []⟩⟩, rfl, by rfl, by decide +kernel, by decide⟩

end Discovery
end LintGate
