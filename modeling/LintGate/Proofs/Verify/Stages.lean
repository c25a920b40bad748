import LintGate.Proofs.Program.Trace
import LintGate.Verify

/-!
# What the stages of a run ask

Whatever a machine answers, a stage keeps to requests of its own: files are read, git is
asked what it ignores, the sources of the tool are probed, a release is installed, or a
script is linted.

## Main definitions

* `Request.Reads`, `Request.IsFile`, `Request.Prints` — requests that are no commands.
* `Git.workTreeQuery`, `Git.ignoreQuery`, `Git.Searches` — what is asked of git.
* `Strategy.Probes`, `Installer.Installs` — what is asked to get the tool.
* `Strategy.command`, `Strategy.Lints` — what is asked to lint a script.

## Main results

* `asks_loadConfig`, `asks_loadAllowList`, `Git.asks_isIgnored`, `Strategy.asks_select`,
  `Installer.asks_ensure`, `Strategy.asks_lint` — the requests of each stage.
-/

namespace LintGate

open Program

/-! ### Files, and what is no file -/

/-- Whether a request looks at the file system and leaves it as it is. -/
def Request.Reads : Request → Prop
  | .canonical _ | .readFile _ | .isThere _ | .isFile _ | .survey _ => True
  | _ => False

/-- Whether a request is for the file system. -/
def Request.IsFile : Request → Prop
  | .makeDirs _ | .tempFile .. | .tempDir .. | .writeFile .. | .removeFile _ | .removeTree _
  | .rename .. => True
  | r => r.Reads

/-- Whether a request is to print something. -/
def Request.Prints : Request → Prop
  | .print .. | .tell _ => True
  | _ => False

/-- Whether a request neither changes the registry nor prints. -/
def Request.Discreet (r : Request) : Prop := ¬ r.ChangesRegistry ∧ ¬ r.Prints

theorem Request.IsFile.discreet {r : Request} (h : r.IsFile) : r.Discreet := by
  cases r <;> first
    | exact ⟨id, id⟩
    | exact h.elim

theorem Request.Reads.discreet {r : Request} (h : r.Reads) : r.Discreet := by
  cases r <;> first
    | exact ⟨id, id⟩
    | exact h.elim

theorem Request.Prints.not_changesRegistry {r : Request} (h : r.Prints) : ¬ r.ChangesRegistry := by
  cases r <;> first
    | exact id
    | exact h.elim

theorem asks_readText (path : String) : (readText path).Asks Request.Reads := by
  refine (asks_send trivial).bind fun x => ?_
  cases x with
  | error e => trivial
  | ok bytes =>
    dsimp only
    split <;> trivial

theorem asks_readConfig (path : String) : (readConfig path).run.Asks Request.Reads := by
  refine Action.asks_bind (Action.asks_trial (asks_readText path) _) fun text => ?_
  split
  · exact Action.asks_pure _
  · exact Action.asks_throw _

theorem asks_loadGlobalConfig (u : Surroundings) : (loadGlobalConfig u).Asks Request.Reads := by
  unfold loadGlobalConfig
  split
  · trivial
  · refine Asks.bind (asks_send trivial) fun there => ?_
    split
    · refine (asks_readConfig _).bind fun x => ?_
      split <;> trivial
    · trivial

theorem asks_loadConfig (u : Surroundings) (explicit : Option String) (root : String) :
    (loadConfig u explicit root).run.Asks Request.Reads := by
  unfold loadConfig
  split
  · exact asks_readConfig _
  · refine Action.asks_bind (Action.asks_lift (asks_send trivial)) fun there => ?_
    split
    · exact asks_readConfig _
    · exact Action.asks_lift (asks_loadGlobalConfig u)

theorem asks_loadAllowList (path : String) : (loadAllowList path).run.Asks Request.Reads := by
  refine Action.asks_bind (Action.asks_lift (asks_readText path)) fun x => ?_
  split
  · trivial
  · trivial
  · exact Action.asks_throw _

/-! ### Scripts -/

namespace Git

/-- The question whether a directory lies in a work tree. -/
def workTreeQuery (root : String) : Command :=
  ⟨"git", ["rev-parse", "--is-inside-work-tree"], some root⟩

/-- The question whether git ignores a script. -/
def ignoreQuery (root : String) (s : ScriptPath) : Command :=
  ⟨"git", ["check-ignore", "-q", "--", s.text], some root⟩

/-- What is asked after the work tree was found. -/
def Searches (root : String) (r : Request) : Prop :=
  r.Reads ∨ ∃ s, r = .run (ignoreQuery root s)

theorem asks_isIgnored (root : String) (s : ScriptPath) :
    (isIgnored root s).run.Asks (Searches root) := by
  refine Action.asks_bind (Action.asks_trial (asks_send (Or.inr ⟨s, rfl⟩)) _) fun o => ?_
  split
  · exact Action.asks_pure _
  · exact Action.asks_pure _
  · exact Action.asks_throw _

end Git

theorem Discovery.asks_sift {allowed : Request → Prop} {isIgnored : ScriptPath → Action Bool}
    (h : ∀ s, (isIgnored s).run.Asks allowed) (ss : List ScriptPath) :
    (sift isIgnored ss).run.Asks allowed := by
  induction ss with
  | nil => exact Action.asks_pure _
  | cons s ss ih =>
    refine Action.asks_bind (h s) fun ignored => ?_
    split
    · exact ih
    · exact Action.asks_bind ih fun kept => Action.asks_pure _

/-! ### The tool -/

theorem Detect.asks_version? {allowed : Request → Prop} {executable : String}
    (h : allowed (.run ⟨executable, ["--version"], none⟩)) :
    (version? executable).Asks allowed := by
  refine Asks.bind (asks_send h) fun x => ?_
  cases x with
  | error e => trivial
  | ok o =>
    dsimp only
    split <;> trivial

theorem Detect.asks_tool {allowed : Request → Prop} {name : String}
    (hversion : allowed (.run ⟨name, ["--version"], none⟩))
    (hwhich : allowed (.run ⟨"which", [name], none⟩)) : (tool name).Asks allowed := by
  refine Asks.bind (asks_version? hversion) fun v => ?_
  cases v with
  | none => trivial
  | some v =>
    refine Asks.bind (Asks.bind (asks_send hwhich) fun x => ?_) fun path => trivial
    cases x <;> trivial

theorem Detect.asks_runtimeReachable {allowed : Request → Prop} {runtime : String}
    (h : allowed (.run ⟨runtime, ["info"], none⟩)) : (runtimeReachable runtime).Asks allowed := by
  refine Asks.bind (asks_send h) fun x => ?_
  cases x <;> trivial

/-- What is asked to choose a source of the tool. -/
def Strategy.Probes (c : Config) (r : Request) : Prop :=
  r = .run ⟨c.tool.name, ["--version"], none⟩ ∨ r = .run ⟨"which", [c.tool.name], none⟩ ∨
    r = .run ⟨c.sandbox.runtime, ["info"], none⟩

theorem Strategy.asks_select (u : Surroundings) (c : Config) :
    ((Detect.probe u).select c).Asks (Probes c) := by
  refine Asks.bind (Detect.asks_tool (Or.inl rfl) (Or.inr (Or.inl rfl))) fun host => ?_
  split
  · trivial
  · refine Asks.bind (Detect.asks_runtimeReachable (Or.inr (Or.inr rfl))) fun reachable => ?_
    split
    · trivial
    · refine Asks.bind trivial fun platform => ?_
      cases platform <;> trivial

namespace Installer

/-- What is asked to install a release: its archive is downloaded and unpacked, and the
executable is asked for its version. -/
def Installs (i : Installer) (t : ToolConfig) (r : Request) : Prop :=
  r.IsFile ∨ (∃ p, r = .fetch (t.releaseArchive p)) ∨
    r = .run ⟨t.binaryPath i.root, ["--version"], none⟩ ∨
    ∃ archive dir, r = .run ⟨"tar", ["-xJf", archive], some dir⟩

variable (i : Installer) (t : ToolConfig)

theorem asks_cached : (i.cached t).Asks (i.Installs t) := by
  have hversion : i.Installs t (.run ⟨t.binaryPath i.root, ["--version"], none⟩) :=
    Or.inr (Or.inr (Or.inl rfl))
  refine Asks.bind (Asks.bind (asks_send (Or.inl trivial)) fun there => ?_) fun status => trivial
  split
  · refine Asks.bind (Detect.asks_version? hversion) fun v => ?_
    cases v <;> trivial
  · trivial

theorem asks_download (p : Platform) (archive : String) :
    (download (t.releaseArchive p) archive).run.Asks (i.Installs t) := by
  have hfetch : i.Installs t (.fetch (t.releaseArchive p)) := Or.inr (Or.inl ⟨p, rfl⟩)
  refine Action.asks_bind (Action.asks_lift (asks_send hfetch)) fun x => ?_
  cases x with
  | error f => exact Action.asks_throw _
  | ok reply =>
    dsimp only
    split
    · exact Action.asks_throw _
    · exact Action.asks_trial (asks_send (Or.inl trivial)) _

theorem asks_unpack (archive dir : String) : (unpack archive dir).run.Asks (i.Installs t) := by
  have htar : i.Installs t (.run ⟨"tar", ["-xJf", archive], some dir⟩) :=
    Or.inr (Or.inr (Or.inr ⟨archive, dir, rfl⟩))
  refine Action.asks_bind (Action.asks_trial (asks_send htar) _) fun o => ?_
  split
  · exact Action.asks_throw _
  · exact Action.asks_pure _

theorem asks_replace (url staging : String) :
    (i.replace t url staging).run.Asks (i.Installs t) := by
  refine Action.asks_bind (Action.asks_lift (asks_send (Or.inl trivial))) fun there => ?_
  have hrename : (Action.trial (.send (.rename (t.releaseDir staging) (t.releaseDir i.root)))
      fun e => .toolUnavailable ("release archive from " ++ url ++ " did not contain " ++
        t.releaseName ++ ": " ++ e.message)).run.Asks (i.Installs t) :=
    Action.asks_trial (asks_send (Or.inl trivial)) _
  split
  · exact Action.asks_bind (Action.asks_trial (asks_send (Or.inl trivial)) _) fun _ => hrename
  · exact hrename

theorem asks_installFrom (url archive : String) :
    (i.installFrom t url archive).run.Asks (i.Installs t) := by
  refine Action.asks_bind (Action.asks_trial (asks_send (Or.inl trivial)) _) fun staging => ?_
  refine Action.asks_always ?_ (Asks.bind (asks_send (Or.inl trivial)) fun _ => trivial)
  refine Action.asks_bind (asks_unpack i t archive staging) fun _ => ?_
  refine Action.asks_bind (asks_replace i t url staging) fun _ => ?_
  refine Action.asks_bind (Action.asks_lift (asks_cached i t)) fun binary => ?_
  cases binary with
  | none => exact Action.asks_throw _
  | some binary => exact Action.asks_pure _

theorem asks_install (p : Platform) : (i.install t p).run.Asks (i.Installs t) := by
  refine Action.asks_bind (Action.asks_trial (asks_send (Or.inl trivial)) _) fun _ => ?_
  refine Action.asks_bind (Action.asks_trial (asks_send (Or.inl trivial)) _) fun archive => ?_
  refine Action.asks_always ?_ (Asks.bind (asks_send (Or.inl trivial)) fun _ => trivial)
  refine Action.asks_bind (asks_download i t p archive) fun _ => ?_
  exact asks_installFrom i t (t.releaseArchive p) archive

theorem asks_ensure (p : Platform) : (i.ensure t p).run.Asks (i.Installs t) := by
  refine Action.asks_bind (Action.asks_lift (asks_cached i t)) fun binary => ?_
  cases binary with
  | none => exact asks_install i t p
  | some binary => exact Action.asks_pure _

end Installer

/-! ### Linting -/

namespace Strategy

/-- The command that lints a script. -/
def command (strategy : Strategy) (x : ScriptPath) : Command :=
  match strategy with
  | .hostBinary t | .downloaded t => ⟨t.executable, t.args ++ [x.text], some t.root⟩
  | .sandbox box args => ⟨box.container.runtime, box.execArgs args x.text, some box.root⟩

/-- What is asked to lint a script. -/
def Lints (strategy : Strategy) (x : ScriptPath) (r : Request) : Prop :=
  r = .run (strategy.command x) ∨
    ∃ k, strategy.container? = some k ∧ r = .registry (.isRemoved k)

theorem asks_lint (strategy : Strategy) (x : ScriptPath) :
    (strategy.lint x).run.Asks (strategy.Lints x) := by
  have hcommand : (Program.send (.run (strategy.command x))).Asks (strategy.Lints x) :=
    asks_send (Or.inl rfl)
  unfold lint
  cases strategy with
  | hostBinary t =>
    exact Action.asks_bind (Action.asks_trial hcommand _) fun o => Action.asks_pure _
  | downloaded t =>
    exact Action.asks_bind (Action.asks_trial hcommand _) fun o => Action.asks_pure _
  | sandbox box args =>
    refine Action.asks_bind (Action.asks_lift (asks_send (Or.inr ⟨_, rfl, rfl⟩))) fun gone => ?_
    split
    · exact Action.asks_throw _
    · exact Action.asks_bind (Action.asks_trial hcommand _) fun o => Action.asks_pure _

end Strategy

end LintGate
