import LintGate.Proofs.Machine.Files
import LintGate.Proofs.Tool.Course

/-!
# The commands of an installation

An installation runs two commands: one unpacks an archive, and the other is the executable, which
is asked for its version.  What they do is not up to the gate.  The first is taken to change
nothing outside of the directory that it is to unpack in, and the second to change nothing.

A *depot* is a machine where all of this holds: what is in an archive is unpacked as the executable
of one release, and an executable prints what it holds.

## Main definitions

* `VersionKeepsFiles`, `UnpacksBelow` — what the commands leave as it is.
* `Installer.UnpackedAt` — the moment when an archive was unpacked.
* `Depot` — machines on which a release can be installed.
* `Depot.outdated` — the state of a machine where an older release is in place.

## Main results

* `Installer.files_of_cached` — a look at the executable changes no file.
* `Depot.keepsFiles`, `Depot.versionKeepsFiles`, `Depot.unpacksBelow` — what holds on a depot.
-/

namespace LintGate

open Program

section Commands

variable {σ : Type} (answer : (r : Request) → σ → r.Answer × σ) (files : σ → FileSystem)

/-- No file is changed when an executable is asked for its version. -/
def VersionKeepsFiles : Prop :=
  ∀ binary s, files (answer (Installer.versionQuestion binary) s).2 = files s

/-- Nothing is changed when an archive is unpacked but what is in the directory it is unpacked
in. -/
def UnpacksBelow : Prop :=
  ∀ archive dir d s, (files s).resolve true dir = .ok d →
    (files s).Keeps (files (answer (Installer.unpacking archive dir) s).2) fun l => ¬ d <+: l

end Commands

namespace Installer

variable {σ : Type} {answer : (r : Request) → σ → r.Answer × σ} {files : σ → FileSystem}
  {i : Installer} {t : ToolConfig} {s s' : σ} {asked : List Request}

/-- A look at the executable changes no file. -/
theorem files_of_cached (hk : KeepsFiles answer files) (hversion : VersionKeepsFiles answer files)
    {found : Option String} (h : Ran answer (i.cached t) s asked found s') :
    files s' = files s := by
  have hquestions : asked ⊆ questions (t.binaryPath i.root) := by
    rcases ran_cached h with ⟨-, -, rfl⟩ | ⟨-, -, hsub⟩
    · exact List.Subset.refl _
    · exact hsub
  refine files_of_ran h fun r hr w => ?_
  have hmem := hquestions hr
  rw [questions, List.mem_cons, List.mem_singleton] at hmem
  rcases hmem with rfl | rfl
  · exact hk.look _ w id
  · exact hversion _ w

/-- The moment when an archive was unpacked into a directory. -/
structure UnpackedAt (answer : (r : Request) → σ → r.Answer × σ) (s : σ) (asked : List Request)
    (staging : String) (u : σ) : Prop where
  intro ::
  exists_moment : ∃ before archive rest o, asked = before ++ unpacking archive staging :: rest ∧
    answer (unpacking archive staging) (afterwards answer s before) = (o, u) ∧ Succeeds o

theorem UnpackedAt.append {first : List Request} {staging : String} {u : σ}
    (hs : afterwards answer s first = s') (h : UnpackedAt answer s' asked staging u)
    (rest : List Request) : UnpackedAt answer s (first ++ (asked ++ rest)) staging u := by
  obtain ⟨before, archive, more, o, rfl, hask, ho⟩ := h
  refine ⟨first ++ before, archive, more ++ rest, o, by simp, ?_, ho⟩
  rw [afterwards_append, hs, hask]

end Installer

/-! ### Depots -/

namespace FileSystem

open Node

variable {fs : FileSystem} {dir : String} {d : Location}

/-- Puts something into a directory, in the place of what has its name. -/
def unpack (fs : FileSystem) (dir : String) (n : List Char) (x : Node) : FileSystem :=
  match fs.resolve true dir with
  | .error _ => fs
  | .ok d =>
    match fs.root.get? d with
    | some (.dir _) => { fs with root := fs.root.put (d ++ [n]) x }
    | _ => fs

/-- The content of a file whose path is looked up from a directory. -/
def readFrom (fs : FileSystem) (dir path : String) : Except OsFault Bytes :=
  match fs.resolve true dir with
  | .error e => .error e
  | .ok d => ({ fs with current := d } : FileSystem).read path

theorem keeps_unpack (n : List Char) (x : Node) (hd : fs.resolve true dir = .ok d) :
    fs.Keeps (fs.unpack dir n x) fun l => ¬ d <+: l := by
  rw [unpack, hd]
  dsimp only
  split
  · next es hes =>
    refine ⟨fun l a hl ha => ?_, rfl⟩
    rw [bare?_put hes (fun hp => hl ((List.prefix_append d [n]).trans hp)), ha]
  · exact .refl _ _

end FileSystem

/-- A release with an executable in it. -/
def releaseOf (executable : Bytes) : Node :=
  .dir [("shellcheck".toList, .file executable true)]

/-- A machine on which a release can be installed.  What is downloaded is an executable, packed in
a directory. -/
structure Depot where
  /-- The name of the directory in the archive. -/
  name : String
  /-- What the server sends. -/
  body : Bytes

namespace Depot

/-- What comes of a command and what it does.  If it is told a directory to run in, it unpacks
there the archive that it is told last, and fails if there is none; all else prints what is in the
executable. -/
def work (d : Depot) (c : Command) (fs : FileSystem) : Except OsFault Output × FileSystem :=
  match c.dir with
  | some dir =>
    match fs.readFrom dir (c.args.getLastD "") with
    | .ok content => (.ok ⟨[], [], .code 0⟩, fs.unpack dir d.name.toList (releaseOf content))
    | .error _ => (.ok ⟨[], [], .code 2⟩, fs)
  | none => ((fs.read c.program).map fun content => ⟨content, [], .code 0⟩, fs)

/-- The answers of the machine. -/
def answer (d : Depot) : (r : Request) → Machine → r.Answer × Machine
  | .run c, m => ((d.work c m.files).1, { m with files := (d.work c m.files).2 })
  | .fetch _, m => (.ok ⟨200, d.body⟩, m)
  | r, m => m.answer r

/-- What an executable prints that reports a version. -/
def printed (version : String) : Bytes := Text.encode ("version: " ++ version ++ "\n").toList

/-- The machine that gets a release of the default name, which reports a version. -/
def ofVersion (version : String) : Depot := ⟨"shellcheck-v0.7.2", printed version⟩

/-- A machine where an executable of an older version is in place, and a file beside its
directory. -/
def outdated : Machine where
  files := ⟨.dir [("gate".toList, .dir [("notes".toList, .file [] false),
    ("shellcheck-v0.7.2".toList, releaseOf (printed "0.7.1"))])], []⟩
  searchDir := []
  commands := []
  elsewhere := []
  web := .offline
  registry := {}
  counter := 0
  calls := []
  downloads := []
  printed := ⟨"", ""⟩

theorem keepsFiles (d : Depot) : KeepsFiles d.answer Machine.files where
  look r m h := by
    cases r with
    | run => exact absurd trivial h
    | fetch => rfl
    | _ => exact Machine.keepsFiles.look _ m h
  isFile := Machine.keepsFiles.isFile
  isThere := Machine.keepsFiles.isThere
  makeDirs := Machine.keepsFiles.makeDirs
  tempFile := Machine.keepsFiles.tempFile
  tempDir := Machine.keepsFiles.tempDir
  writeFile := Machine.keepsFiles.writeFile
  removeFile := Machine.keepsFiles.removeFile
  removeTree := Machine.keepsFiles.removeTree
  rename := Machine.keepsFiles.rename

theorem versionKeepsFiles (d : Depot) : VersionKeepsFiles d.answer Machine.files := fun _ _ => rfl

theorem unpacksBelow (d : Depot) : UnpacksBelow d.answer Machine.files := by
  intro archive dir l m hl
  show m.files.Keeps (d.work ⟨"tar", ["-xJf", archive], some dir⟩ m.files).2 _
  unfold work
  dsimp only
  split
  · exact FileSystem.keeps_unpack d.name.toList _ hl
  · exact .refl _ _

end Depot
end LintGate
