import LintGate.Proofs.Path.Below
import LintGate.Proofs.Tool.Clearing
import LintGate.Proofs.Tool.Depot

/-!
# What an installation changes

An installation makes its root, and makes an archive and a directory in it.  It removes both
again, it removes the directory of an earlier release, and it moves the directory of the new one
into its place.  Where these two are is up to the name and the version that are configured, and
nothing keeps these from leading out of the root.

## Main definitions

* `Request.changed` — the paths at which a request changes something.
* `TemporariesInside` — what is made under a new name is made in the directory that is told.
* `Installer.StaysInside` — the root is made, and all else that is changed is below it.
* `Installer.Step` — what an installation can ask, by what it changes.
* `ToolConfig.releaseWay`, `ToolConfig.binaryWay` — the ways from the root to the directory of a
  release and to its executable.

## Main results

* `Installer.step_of_ran` — the steps of an installation that change something.
* `Installer.stays_inside_iff` — **the tools whose installation stays inside its root.**
-/

namespace LintGate

open Program Text

/-- The paths at which a request changes something that is there, or puts something. -/
def Request.changed : Request → List String
  | .writeFile path _ | .removeFile path | .removeTree path => [path]
  | .rename source target => [source, target]
  | _ => []

/-- What is made under a new name is made in the directory that is told, as long as its name
holds no slash and does not start with dots alone. -/
structure TemporariesInside {σ : Type} (answer : (r : Request) → σ → r.Answer × σ)
    (current : List (List Char)) : Prop where
  file : ∀ dir start tail s path, '/' ∉ start.toList → '/' ∉ tail.toList →
    (∃ c ∈ start.toList, c ≠ '.') →
    (answer (.tempFile dir start tail) s).1 = .ok path → Path.Below current dir path
  dir : ∀ dir start s path, '/' ∉ start.toList → (∃ c ∈ start.toList, c ≠ '.') →
    (answer (.tempDir dir start) s).1 = .ok path → Path.Below current dir path

theorem MakesTemp.below {fs fs' : FileSystem} {dir start tail path : String} {x : Node}
    {current : List (List Char)} (h : MakesTemp fs dir start tail x (.ok path) fs')
    (hstart : '/' ∉ start.toList) (htail : '/' ∉ tail.toList)
    (hname : ∃ c ∈ start.toList, c ≠ '.') : Path.Below current dir path := by
  cases h with
  | ok n hn h =>
    refine Path.below_join_name ?_ ?_ dir
    · simp [hstart, hn, htail]
    · obtain ⟨c, hc, hdot⟩ := hname
      exact ⟨c, by simp [hc], hdot⟩

/-- A machine that keeps files makes what has a new name where it is told to. -/
theorem KeepsFiles.temporariesInside {σ : Type} {answer : (r : Request) → σ → r.Answer × σ}
    {files : σ → FileSystem} (hk : KeepsFiles answer files) (current : List (List Char)) :
    TemporariesInside answer current where
  file dir start tail s path hstart htail hname h := by
    have hmake := hk.tempFile dir start tail s
    rw [h] at hmake
    exact hmake.below hstart htail hname
  dir dir start s path hstart hname h := by
    have hmake := hk.tempDir dir start s
    rw [h] at hmake
    exact hmake.below hstart (by simp) hname

namespace Installer

variable {σ : Type} {answer : (r : Request) → σ → r.Answer × σ} {i : Installer} {t : ToolConfig}
  {p : Platform} {s s' : σ} {asked : List Request} {url archive staging path : String}
  {x : Except Fault String}

/-- The root is made, and all else that is made or changed is below it. -/
structure StaysInside (answer : (r : Request) → σ → r.Answer × σ) (current : List (List Char))
    (i : Installer) (s : σ) (asked : List Request) : Prop where
  root : ∀ path, .makeDirs path ∈ asked → path = i.root
  temporaries : ∀ path ∈ temporaries answer s asked, Path.Below current i.root path
  changed : ∀ r ∈ asked, ∀ path ∈ r.changed, Path.Below current i.root path

/-- What an installation asks, with what it made for the time being. -/
inductive Step (i : Installer) (t : ToolConfig) (made : List String) : Request → Prop
  | look {r : Request} (h : r ∈ questions (t.binaryPath i.root)) : Step i t made r
  | root : Step i t made (.makeDirs i.root)
  | archive : Step i t made (.tempFile i.root "download-" ".tar.xz")
  | staging : Step i t made (.tempDir i.root "extract-")
  | fetch (url : String) : Step i t made (.fetch url)
  | write {path : String} (content : Bytes) (h : path ∈ made) :
      Step i t made (.writeFile path content)
  | unpack (archive staging : String) : Step i t made (unpacking archive staging)
  | isThere : Step i t made (.isThere (t.releaseDir i.root))
  | makeRoom : Step i t made (.removeTree (t.releaseDir i.root))
  | move {staging : String} (h : staging ∈ made) :
      Step i t made (.rename (t.releaseDir staging) (t.releaseDir i.root))
  | removeTree {path : String} (h : path ∈ made) : Step i t made (.removeTree path)
  | removeFile {path : String} (h : path ∈ made) : Step i t made (.removeFile path)

/-! ### The steps of a run -/

variable {made : List String}

theorem step_of_cached {found : Option String} (h : Ran answer (i.cached t) s asked found s') :
    ∀ r ∈ asked, Step i t made r := by
  rcases ran_cached h with ⟨-, -, rfl⟩ | ⟨-, -, hsub⟩
  · exact fun r hr => .look hr
  · exact fun r hr => .look (hsub hr)

theorem step_of_replace {y : Except Fault Unit} (hmade : staging ∈ made)
    (h : Ran answer (i.replace t url staging).run s asked y s') : ∀ r ∈ asked, Step i t made r := by
  intro r hr
  rcases mem_of_ran_replace h r hr with rfl | rfl | rfl
  · exact .isThere
  · exact .makeRoom
  · exact .move hmade

theorem Settling.step (hmade : staging ∈ made)
    (h : Settling answer i t url archive staging s asked x s') : ∀ r ∈ asked, Step i t made r := by
  cases h with
  | notUnpacked hu ho =>
    simp only [List.forall_mem_singleton]
    exact .unpack archive staging
  | notReplaced hu ho hr =>
    rw [List.forall_mem_cons]
    exact ⟨.unpack archive staging, step_of_replace hmade hr⟩
  | replaced hu ho hr hc hx =>
    rw [List.forall_mem_cons, List.forall_mem_append]
    exact ⟨.unpack archive staging, step_of_replace hmade hr, step_of_cached hc⟩

theorem step_fetching (hmade : archive ∈ made) (content : Bytes) :
    ∀ r ∈ i.fetching url archive content, Step i t made r := by
  rw [fetching, List.forall_mem_cons, List.forall_mem_cons, List.forall_mem_singleton]
  exact ⟨.fetch url, .write content hmade, .staging⟩

theorem step_preparing : ∀ r ∈ i.preparing, Step i t made r := by
  rw [preparing, List.forall_mem_cons, List.forall_mem_singleton]
  exact ⟨.root, .archive⟩

theorem Trial.step (hmade : archive ∈ made) (h : Trial answer i t url archive s asked x s')
    (htemp : temporaries answer s asked ⊆ made) : ∀ r ∈ asked, Step i t made r := by
  cases h with
  | notFetched hf hy =>
    rw [List.forall_mem_singleton]
    exact .fetch url
  | notWritten hf hy hw =>
    rw [List.forall_mem_cons, List.forall_mem_singleton]
    exact ⟨.fetch url, .write _ hmade⟩
  | noStaging hf hy hw hd => exact step_fetching hmade _
  | @staged s₁ s₂ s₃ s₄ _ reply staging settling _ z hf hy hw hd hs hr =>
    have hstaging : staging ∈ made := by
      rw [temporaries_staged hf hw hd hs] at htemp
      exact htemp (List.mem_singleton_self staging)
    rw [List.forall_mem_append, List.forall_mem_append, List.forall_mem_singleton]
    exact ⟨step_fetching hmade _, hs.step hstaging, .removeTree hstaging⟩

/-- **What an installation asks.**  It is about the root, about what was made for the time being,
and about the directory of the release. -/
theorem step_of_ran (h : Ran answer (i.ensure t p).run s asked x s') :
    ∀ r ∈ asked, Step i t (temporaries answer s asked) r := by
  cases course_of_ran h with
  | found hc => exact step_of_cached hc
  | noRoot hc hm =>
    rw [List.forall_mem_append, List.forall_mem_singleton]
    exact ⟨step_of_cached hc, .root⟩
  | noArchive hc hm hf =>
    rw [List.forall_mem_append]
    exact ⟨step_of_cached hc, step_preparing⟩
  | @tried s₁ s₂ s₃ s₄ _ looking trying archive _ z hc hm hf ht hr =>
    rw [temporaries_tried hc hm hf, List.forall_mem_append, List.forall_mem_append,
      List.forall_mem_append, List.forall_mem_singleton]
    exact ⟨step_of_cached hc, step_preparing,
      ht.step List.mem_cons_self (List.subset_cons_self _ _), .removeFile List.mem_cons_self⟩

end Installer

/-! ### Ways to a release -/

namespace ToolConfig

/-- The way from an install root to the directory of a release. -/
def releaseWay (t : ToolConfig) : List (List Char) := splitOn '/' t.releaseName.toList

/-- The way from an install root to the executable of a release. -/
def binaryWay (t : ToolConfig) : List (List Char) := t.releaseWay ++ splitOn '/' t.name.toList

variable {t : ToolConfig}

theorem isAbsolute_releaseName (t : ToolConfig) :
    Path.isAbsolute t.releaseName.toList = Path.isAbsolute t.name.toList := by
  rw [releaseName, String.toList_append, String.toList_append, List.append_assoc]
  cases t.name.toList with
  | nil => simp [Path.isAbsolute]
  | cons c cs => rfl

theorem below_releaseDir_iff (t : ToolConfig) :
    (∀ current root, Path.Below current root (t.releaseDir root)) ↔
      Path.isAbsolute t.name.toList = false ∧ Path.StaysBelow t.releaseWay := by
  refine Path.below_join_iff
    (fun habs => ⟨t.releaseWay, List.Subset.refl _, fun current root => ?_⟩)
    fun hrel current root => ?_
  · rw [← isAbsolute_releaseName] at habs
    rw [releaseDir, Path.join, Path.joinChars, if_pos habs, String.ofList_toList, Path.placeOf,
      if_pos habs]
    rfl
  · rw [← isAbsolute_releaseName] at hrel
    exact Path.placeOf_join hrel root

theorem below_binaryPath_iff (t : ToolConfig) :
    (∀ current root, Path.Below current root (t.binaryPath root)) ↔
      Path.isAbsolute t.name.toList = false ∧ Path.StaysBelow t.binaryWay := by
  refine Path.below_join_iff (fun habs => ⟨splitOn '/' t.name.toList,
    List.subset_append_right _ _, fun current root => ?_⟩) fun hrel current root => ?_
  · rw [binaryPath, Path.join, Path.joinChars, if_pos habs, String.ofList_toList, Path.placeOf,
      if_pos habs]
  · rw [binaryPath, Path.placeOf_join hrel, releaseDir, Path.placeOf_join, binaryWay,
      Path.walk_append]
    · rfl
    · rwa [isAbsolute_releaseName]

/-- A name and a version without slashes make two names in a row, unless the first one leads up
again. -/
theorem staysBelow_of_not_mem (hname : '/' ∉ t.name.toList) (hversion : '/' ∉ t.version.toList) :
    Path.isAbsolute t.name.toList = false ∧ Path.StaysBelow t.releaseWay ∧
      (Path.StaysBelow t.binaryWay ↔ t.name ≠ "..") := by
  have hrelease : t.releaseName.toList = t.name.toList ++ ('-' :: 'v' :: t.version.toList) := by
    simp [releaseName]
  have hway : t.releaseWay = [t.releaseName.toList] :=
    splitOn_of_not_mem (by simp [hrelease, hname, hversion])
  have hdepth : Path.depth? 0 t.releaseWay = some 1 := by
    rw [hway, Path.depth?_cons, (Path.enter_name ⟨'v', by simp [hrelease], by decide⟩).2]
    rfl
  refine ⟨?_, ⟨1, Nat.one_pos, hdepth⟩, ?_⟩
  · exact Path.isAbsolute_of_not_mem hname
  · have hup : t.name = ".." ↔ t.name.toList = ['.', '.'] := by rw [← String.toList_inj]; simp
    rw [Path.staysBelow_iff, binaryWay, Path.depth?_append, hdepth, splitOn_of_not_mem hname,
      Option.bind_some, Path.depth?_cons, Path.descend?, ne_eq, hup]
    by_cases hstays : t.name.toList = [] ∨ t.name.toList = ['.']
    · rw [if_pos hstays]
      refine iff_of_true rfl fun h => ?_
      simp [h] at hstays
    · rw [if_neg hstays]
      by_cases hdots : t.name.toList = ['.', '.']
      · rw [if_pos hdots]
        exact iff_of_false (by simp) fun h => h hdots
      · rw [if_neg hdots]
        exact iff_of_true rfl hdots

end ToolConfig
namespace Installer

variable {σ : Type} {answer : (r : Request) → σ → r.Answer × σ} {i : Installer} {t : ToolConfig}
  {p : Platform} {s s' : σ} {asked : List Request} {x : Except Fault String}
  {current : List (List Char)}

/-! ### Runs that stay inside -/

/-- What is made for the time being is made in the root. -/
theorem temporaries_below (hd : TemporariesInside answer current) {made : List String}
    (h : ∀ r ∈ asked, Step i t made r) :
    ∀ path ∈ temporaries answer s asked, Path.Below current i.root path := by
  intro path hpath
  obtain ⟨e, he, hpath⟩ := List.mem_filterMap.mp hpath
  obtain ⟨r, hr, u, rfl⟩ := exists_of_mem_exchanges he
  -- Only two of the steps make something.
  cases h r hr with
  | archive =>
    cases hx : (answer (.tempFile i.root "download-" ".tar.xz") u).1 with
    | error e => simp [Exchange.temporary?, hx] at hpath
    | ok made =>
      rw [hx] at hpath
      obtain rfl := Option.some_inj.mp hpath
      exact hd.file _ _ _ _ _ (by decide) (by decide) ⟨'d', by decide⟩ hx
  | staging =>
    cases hx : (answer (.tempDir i.root "extract-") u).1 with
    | error e => simp [Exchange.temporary?, hx] at hpath
    | ok made =>
      rw [hx] at hpath
      obtain rfl := Option.some_inj.mp hpath
      exact hd.dir _ _ _ _ (by decide) ⟨'e', by decide⟩ hx
  | look hr =>
    rw [questions, List.mem_cons, List.mem_singleton] at hr
    rcases hr with rfl | rfl <;> cases hpath
  | _ => cases hpath

/-- If the directory of a release is below every root, an installation stays inside. -/
theorem staysInside_of_ran (hd : TemporariesInside answer current)
    (hrelease : ∀ root, Path.Below current root (t.releaseDir root))
    (h : Ran answer (i.ensure t p).run s asked x s') : StaysInside answer current i s asked := by
  have hstep := step_of_ran h
  have htemp := temporaries_below (s := s) hd hstep
  refine ⟨fun path hpath => ?_, htemp, fun r hr path hpath => ?_⟩
  · have hroot := hstep _ hpath
    generalize hr : Request.makeDirs path = r at hroot
    cases hroot with
    | root => exact Request.makeDirs.inj hr
    | look hlook => simp [← hr, questions] at hlook
    | _ => cases hr
  · cases hstep r hr with
    | look hlook =>
      rw [questions, List.mem_cons, List.mem_singleton] at hlook
      rcases hlook with rfl | rfl <;> exact absurd hpath List.not_mem_nil
    | write content hmade | removeTree hmade | removeFile hmade =>
      obtain rfl := List.mem_singleton.mp hpath
      exact htemp _ hmade
    | makeRoom =>
      obtain rfl := List.mem_singleton.mp hpath
      exact hrelease i.root
    | move hmade =>
      rcases List.mem_cons.mp hpath with rfl | hpath
      · exact (htemp _ hmade).trans (hrelease _)
      · obtain rfl := List.mem_singleton.mp hpath
        exact hrelease i.root
    | _ => exact absurd hpath List.not_mem_nil

/-! ### A run that changes all it can -/

/-- A machine that does whatever it is asked to. -/
def obliging : (r : Request) → Registry → r.Answer × Registry
  | .run _, g => (.ok ⟨[], [], .code 0⟩, g)
  | .fetch _, g => (.ok ⟨200, []⟩, g)
  | .canonical path, g => (.ok path, g)
  | .readFile _, g => (.ok [], g)
  | .isThere _, g => (true, g)
  | .isFile _, g => (false, g)
  | .survey _, g => (none, g)
  | .tempFile dir start tail, g => (.ok (Path.join dir (start ++ "x" ++ tail)), g)
  | .tempDir dir start, g => (.ok (Path.join dir (start ++ "x")), g)
  | .makeDirs _, g | .writeFile .., g | .removeFile _, g | .removeTree _, g | .rename .., g =>
    (.ok (), g)
  | .print .., g => (.ok (), g)
  | .tell _, g => ((), g)
  | .token, g => ("1", g)
  | .registry op, g => g.apply op

theorem temporariesInside_obliging (current : List (List Char)) :
    TemporariesInside obliging current where
  file dir start tail s path hstart htail _ h := by
    cases h
    exact Path.below_join_name (by simp [hstart, htail]) ⟨'x', by simp, by decide⟩ dir
  dir dir start s path hstart _ h := by
    cases h
    exact Path.below_join_name (by simp [hstart]) ⟨'x', by simp, by decide⟩ dir

/-- There the directory of the release is removed. -/
theorem makesRoom_obliging (t : ToolConfig) (p : Platform) (root : String) :
    .removeTree (t.releaseDir root) ∈
      ((⟨root⟩ : Installer).ensure t p).run.history obliging {} := by
  have hhistory : ((⟨root⟩ : Installer).ensure t p).run.history obliging {} =
      let archive := Path.join root ("download-" ++ "x" ++ ".tar.xz")
      let staging := Path.join root ("extract-" ++ "x")
      [.isFile (t.binaryPath root), .makeDirs root, .tempFile root "download-" ".tar.xz",
        .fetch (t.releaseArchive p), .writeFile archive [], .tempDir root "extract-",
        unpacking archive staging, .isThere (t.releaseDir root), .removeTree (t.releaseDir root),
        .rename (t.releaseDir staging) (t.releaseDir root), .isFile (t.binaryPath root),
        .removeTree staging, .removeFile archive] := rfl
  rw [hhistory]
  simp

/-- **The tools whose installation stays inside its root.**  The executable is below every root
exactly if the way to it never leads out of the root and ends below it.  An installation makes,
removes and moves nothing outside of the root, and the root itself only is made, on every machine
that makes what is for the time being where it is told to, exactly if the same holds of the
directory of the release.  A name and a version without slashes are enough, unless the name is two
dots: then the executable would be the root. -/
theorem stays_inside_iff (t : ToolConfig) :
    ((∀ current root, Path.Below current root (t.binaryPath root)) ↔
      Path.isAbsolute t.name.toList = false ∧ Path.StaysBelow t.binaryWay) ∧
    (∀ p, (∀ (σ : Type) (answer : (r : Request) → σ → r.Answer × σ) current root s asked x s',
        TemporariesInside answer current →
        Ran answer ((⟨root⟩ : Installer).ensure t p).run s asked x s' →
        StaysInside answer current ⟨root⟩ s asked) ↔
      Path.isAbsolute t.name.toList = false ∧ Path.StaysBelow t.releaseWay) ∧
    ('/' ∉ t.name.toList → '/' ∉ t.version.toList →
      Path.isAbsolute t.name.toList = false ∧ Path.StaysBelow t.releaseWay ∧
        (Path.StaysBelow t.binaryWay ↔ t.name ≠ "..")) := by
  refine ⟨t.below_binaryPath_iff, fun p => ⟨fun h => ?_, fun h => ?_⟩,
    ToolConfig.staysBelow_of_not_mem⟩
  · refine t.below_releaseDir_iff.mp fun current root => ?_
    have hinside := h Registry obliging current root {} _ _ _
      (temporariesInside_obliging current) (ran_run _ _)
    exact hinside.changed _ (makesRoom_obliging t p root) _ (List.mem_singleton_self _)
  · intro σ answer current root s asked x s' hd hran
    exact staysInside_of_ran hd (t.below_releaseDir_iff.mpr h current) hran

/-- The default tool stays inside, also where an older release makes room for it. -/
theorem stays_inside_default :
    Path.Below [] "/gate" (ToolConfig.binaryPath {} "/gate") ∧
    StaysInside (Depot.ofVersion "0.7.2").answer [] ⟨"/gate"⟩ Depot.outdated
      (((⟨"/gate"⟩ : Installer).ensure {} .linuxX86).run.history
        (Depot.ofVersion "0.7.2").answer Depot.outdated) := by
  obtain ⟨hbinary, hruns, hplain⟩ := stays_inside_iff {}
  obtain ⟨hrelative, hrelease, hdots⟩ := hplain (by decide) (by decide)
  exact ⟨hbinary.mpr ⟨hrelative, hdots.mpr (by decide)⟩ [] "/gate",
    (hruns .linuxX86).mpr ⟨hrelative, hrelease⟩ _ _ _ _ _ _ _ _
      ((Depot.keepsFiles _).temporariesInside []) (ran_run _ _)⟩

/-- A machine with a directory beside the one that releases are kept in. -/
def besideKept : Machine :=
  { Depot.outdated with
    files := ⟨.dir [("gate".toList, .empty),
      ("kept-v0.7.2".toList, .dir [("notes".toList, .file [] false)])], []⟩ }

/-- **A name can lead out of the root.**  An absolute name stands for itself, wherever the root
is.  With a name that starts with two dots the executable is looked for outside of the root, and an
installation that fails removed what stood beside the root. -/
theorem ensure_removes_beside :
    ToolConfig.binaryPath { name := "/opt/tool" } "/gate" = "/opt/tool" ∧
    ¬ Path.AtOrBelow [] "/gate" "/opt/tool" ∧
    ¬ Path.AtOrBelow [] "/gate" (ToolConfig.binaryPath { name := "../kept" } "/gate") ∧
      let after := ((⟨"/gate"⟩ : Installer).ensure { name := "../kept" } .linuxX86).run.run
        (Depot.ofVersion "0.7.2").answer besideKept
      let notes := ["kept-v0.7.2".toList, "notes".toList]
      after.1.isOk = false ∧ besideKept.files.root.bare? notes = some (.file [] false) ∧
        after.2.files.root.bare? notes = none := by
  refine ⟨by decide +kernel, by decide +kernel, by decide +kernel, by decide +kernel, rfl, ?_⟩
  decide +kernel

end Installer
end LintGate
