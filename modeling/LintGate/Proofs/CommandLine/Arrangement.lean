import LintGate.Proofs.CommandLine.Line

/-!
# Arrangements of a command line

The options that ask for something may be written in any order, in any of their spellings, and
those of every command at any level.  An option may be left out if it asks for the default.

## Main definitions

* `CommandLine.globalChoices`, `CommandLine.TaskChoices` — the options that ask for something, of
  every command and of one.
* `CommandLine.Asks` — these options, in whatever order they stand.
* `CommandLine.Askable` — what can be asked for.

## Main results

* `CommandLine.acceptable_iff` — when these options can be taken in.
* `CommandLine.ofLayers_of_asks` — they come to what they ask for.
* `CommandLine.ofWords_arranged` — **a command line may be arranged in any way.**
-/

namespace LintGate
namespace CommandLine

variable {cs ds : List Choice} {css : List (List Choice)} {path : String} {words : List String}

/-! ### The options that ask for something -/

/-- The options of every command that ask for something. -/
def globalChoices (config : Option String) (verbosity : Nat) (quiet : Bool) : List Choice :=
  config.toList.map .config ++
    (List.replicate verbosity .verbose ++ if quiet then [.quiet] else [])

/-- A format is written, or left out if it is the one for people. -/
inductive FormatChoice : Format → List Choice → Prop
  | left : FormatChoice .human []
  | written (f : Format) : FormatChoice f [.format f]

/-- A number of jobs is written as a decimal, or left out if it is one. -/
inductive JobsChoice : Nat → List Choice → Prop
  | left : JobsChoice 1 []
  | written {number : String} {n : Nat} (h : Decimal number.toList n) :
      JobsChoice n [.jobs number]

/-- The options of its own command that ask for a task. -/
inductive TaskChoices : Task → List Choice → Prop
  | verify {path : String} {jobs : Nat} {format : Format} {js fs : List Choice}
      (hjobs : JobsChoice jobs js) (hformat : FormatChoice format fs) :
      TaskChoices (.verify path jobs format) (js ++ fs)
  | toolStatus {path : String} {format : Format} {fs : List Choice}
      (hformat : FormatChoice format fs) : TaskChoices (.toolStatus path format) fs

/-- Options ask for something, in whatever order they stand. -/
def Asks (cs : List Choice) (i : Invocation) : Prop :=
  ∃ own, TaskChoices i.task own ∧
    cs.Perm (globalChoices i.config i.verbosity i.quiet ++ own)

variable {config : Option String} {verbosity jobs : Nat} {quiet : Bool} {format : Format}
  {js fs : List Choice}

theorem Acceptable.perm (h : cs.Perm ds) (hds : Acceptable ds) : Acceptable cs where
  readable := fun c hc => hds.readable c (h.mem_iff.mp hc)
  once := hds.once.perm h.symm fun hab hs => hs ▸ hab hs.symm

/-- Options that may stand at one level may be shared out among several. -/
theorem Acceptable.of_flatten (h : Acceptable css.flatten) : ∀ cs ∈ css, Acceptable cs :=
  fun _ hcs => ⟨fun c hc => h.readable c (List.mem_flatten.mpr ⟨_, hcs, hc⟩),
    (List.pairwise_flatten.mp h.once).1 _ hcs⟩

theorem mem_globalChoices {c : Choice} : c ∈ globalChoices config verbosity quiet ↔
    (∃ file, config = some file ∧ c = .config file) ∨ (verbosity ≠ 0 ∧ c = .verbose) ∨
      (quiet = true ∧ c = .quiet) := by
  cases config <;> cases quiet <;> simp [globalChoices]

theorem switch_of_mem_globalChoices {c : Choice} (h : c ∈ globalChoices config verbosity quiet) :
    c.switch ≠ .jobs ∧ c.switch ≠ .format := by
  obtain ⟨file, -, rfl⟩ | ⟨-, rfl⟩ | ⟨-, rfl⟩ := mem_globalChoices.mp h
  all_goals exact ⟨nofun, nofun⟩

theorem readable_globalChoices :
    (∀ c ∈ globalChoices config verbosity quiet, c.IsReadable) ↔ config ≠ some "" := by
  simp only [mem_globalChoices]
  constructor
  · rintro h rfl
    exact h (.config "") (.inl ⟨"", rfl, rfl⟩) rfl
  · rintro h c (⟨file, rfl, rfl⟩ | ⟨-, rfl⟩ | ⟨-, rfl⟩)
    · exact fun hempty => h (congrArg some hempty)
    · trivial
    · trivial

theorem once_globalChoices : (globalChoices config verbosity quiet).Pairwise
    fun a b => a.switch = b.switch → a.switch = .verbose := by
  have hflags : (List.replicate verbosity Choice.verbose ++
      if quiet = true then [Choice.quiet] else []).Pairwise
        fun a b => a.switch = b.switch → a.switch = .verbose := by
    rw [List.pairwise_append]
    refine ⟨List.pairwise_replicate.mpr (Or.inr fun _ => rfl), ?_, fun a ha _ _ _ => ?_⟩
    · cases quiet <;> simp
    · rw [List.eq_of_mem_replicate ha]
      rfl
  refine List.pairwise_append.mpr ⟨?_, hflags, fun a ha b hb hs => ?_⟩
  · cases config <;> simp
  · obtain ⟨file, -, rfl⟩ := List.mem_map.mp ha
    have hflag : b = .verbose ∨ b = .quiet := by
      refine (List.mem_append.mp hb).imp List.eq_of_mem_replicate fun hb => ?_
      cases quiet with
      | false => cases hb
      | true => exact List.mem_singleton.mp hb
    rcases hflag with rfl | rfl <;> cases hs

/-- **When options can be taken in**: the file is not empty, and the number of jobs can be read. -/
theorem acceptable_iff (hjs : js = [] ∨ ∃ number, js = [.jobs number])
    (hfs : FormatChoice format fs) :
    Acceptable (globalChoices config verbosity quiet ++ (js ++ fs)) ↔
      config ≠ some "" ∧ ∀ c ∈ js, c.IsReadable := by
  have hjobs : ∀ c ∈ js, c.switch = .jobs := by
    rcases hjs with rfl | ⟨number, rfl⟩ <;> simp [Choice.switch]
  have hformat : ∀ c ∈ fs, c.switch = .format ∧ c.IsReadable := by
    cases hfs <;> simp [Choice.switch, Choice.IsReadable]
  have honce : (js ++ fs).Pairwise fun a b => a.switch = b.switch → a.switch = .verbose := by
    refine List.pairwise_append.mpr ⟨?_, ?_, fun a ha b hb hs => ?_⟩
    · rcases hjs with rfl | ⟨number, rfl⟩ <;> simp
    · cases hfs <;> simp
    · rw [hjobs a ha, (hformat b hb).1] at hs
      cases hs
  constructor
  · intro h
    exact ⟨readable_globalChoices.mp fun c hc => h.readable c (List.mem_append_left _ hc),
      fun c hc => h.readable c (by simp [hc])⟩
  · rintro ⟨hconfig, hreadable⟩
    refine ⟨?_, List.pairwise_append.mpr ⟨once_globalChoices, honce, fun a ha b hb hs => ?_⟩⟩
    · simp only [List.forall_mem_append]
      exact ⟨readable_globalChoices.mpr hconfig, hreadable, fun c hc => (hformat c hc).2⟩
    · -- An option of every command is never one of its own.
      obtain ⟨hnojobs, hnoformat⟩ := switch_of_mem_globalChoices ha
      rcases List.mem_append.mp hb with hb | hb
      · exact absurd (hs.trans (hjobs b hb)) hnojobs
      · exact absurd (hs.trans (hformat b hb).1) hnoformat

/-! ### What the options come to -/

theorem lastOf_of_perm {α : Type} {pick : Choice → Option α} {o : Option α}
    (h : (cs.filterMap pick).Perm o.toList) : lastOf pick cs = o := by
  cases o with
  | none => rw [lastOf, List.Perm.eq_nil h, List.getLast?_nil]
  | some a => rw [lastOf, List.perm_singleton.mp h, List.getLast?_singleton]

/-- An option of its own command is not among those of every command. -/
theorem filterMap_globalChoices {α : Type} {pick : Choice → Option α}
    (hconfig : ∀ file, pick (.config file) = none) (hverbose : pick .verbose = none)
    (hquiet : pick .quiet = none) :
    (globalChoices config verbosity quiet).filterMap pick = [] := by
  rw [List.filterMap_eq_nil_iff]
  rintro c hc
  obtain ⟨file, -, rfl⟩ | ⟨-, rfl⟩ | ⟨-, rfl⟩ := mem_globalChoices.mp hc
  · exact hconfig file
  · exact hverbose
  · exact hquiet

theorem config?_globalChoices :
    (globalChoices config verbosity quiet).filterMap Choice.config? = config.toList := by
  cases config <;> cases quiet <;> simp [globalChoices, Choice.config?]

theorem count_globalChoices :
    (globalChoices config verbosity quiet).count .verbose = verbosity := by
  cases config <;> cases quiet <;> simp [globalChoices]

variable {i : Invocation} {t : Task} {own : List Choice}

theorem TaskChoices.switch_of_mem (h : TaskChoices t own) :
    ∀ c ∈ own, c.switch = .jobs ∨ c.switch = .format := by
  cases h with
  | verify hjobs hformat => cases hjobs <;> cases hformat <;> simp [Choice.switch]
  | toolStatus hformat => cases hformat <;> simp [Choice.switch]

/-- An option of every command is not among those of a task. -/
theorem TaskChoices.not_mem {c : Choice} (h : TaskChoices t own)
    (hc : c.switch ≠ .jobs ∧ c.switch ≠ .format) : c ∉ own := fun hmem => by
  rcases h.switch_of_mem c hmem with hs | hs
  · exact hc.1 hs
  · exact hc.2 hs

theorem lastOf_config?_of_asks (h : Asks cs i) : lastOf Choice.config? cs = i.config := by
  obtain ⟨own, hown, hperm⟩ := h
  refine lastOf_of_perm ((hperm.filterMap _).trans (List.Perm.of_eq ?_))
  have hnone : own.filterMap Choice.config? = [] := by
    rw [List.filterMap_eq_nil_iff]
    intro c hc
    cases c with
    | config file => exact absurd hc (hown.not_mem ⟨nofun, nofun⟩)
    | verbose | quiet | jobs | format => rfl
  rw [List.filterMap_append, config?_globalChoices, hnone, List.append_nil]

theorem count_verbose_of_asks (h : Asks cs i) : cs.count .verbose = i.verbosity := by
  obtain ⟨own, hown, hperm⟩ := h
  have hnone : .verbose ∉ own := hown.not_mem ⟨nofun, nofun⟩
  rw [hperm.count_eq, List.count_append, count_globalChoices, List.count_eq_zero.mpr hnone,
    Nat.add_zero]

theorem quiet_mem_iff_of_asks (h : Asks cs i) : .quiet ∈ cs ↔ i.quiet = true := by
  obtain ⟨own, hown, hperm⟩ := h
  have hnone : .quiet ∉ own := hown.not_mem ⟨nofun, nofun⟩
  rw [hperm.mem_iff, List.mem_append, or_iff_left hnone, mem_globalChoices]
  simp

/-- An option of its own command has the value that is given to the command. -/
theorem lastOf_own {α : Type} {pick : Choice → Option α} {o : Option α}
    (hconfig : ∀ file, pick (.config file) = none) (hverbose : pick .verbose = none)
    (hquiet : pick .quiet = none) (hperm : cs.Perm (globalChoices config verbosity quiet ++ own))
    (hown : own.filterMap pick = o.toList) : lastOf pick cs = o := by
  refine lastOf_of_perm ((hperm.filterMap _).trans (List.Perm.of_eq ?_))
  rw [List.filterMap_append, filterMap_globalChoices hconfig hverbose hquiet, hown,
    List.nil_append]

theorem FormatChoice.jobs?_eq_nil (h : FormatChoice format fs) :
    fs.filterMap Choice.jobs? = [] := by
  cases h <;> rfl

theorem JobsChoice.format?_eq_nil (h : JobsChoice jobs js) :
    js.filterMap Choice.format? = [] := by
  cases h <;> rfl

theorem FormatChoice.exists_filterMap (h : FormatChoice format fs) :
    ∃ o : Option Format, fs.filterMap Choice.format? = o.toList ∧ o.getD .human = format := by
  cases h with
  | left => exact ⟨none, rfl, rfl⟩
  | written => exact ⟨some format, rfl, rfl⟩

theorem JobsChoice.exists_filterMap (h : JobsChoice jobs js) (hrange : 1 ≤ jobs ∧ jobs ≤ 65535) :
    ∃ o : Option Nat, js.filterMap Choice.jobs? = o.toList ∧ o.getD 1 = jobs := by
  cases h with
  | left => exact ⟨none, rfl, rfl⟩
  | written h =>
    refine ⟨some jobs, ?_, rfl⟩
    simp [Choice.jobs?, jobs?_eq_ok_iff.mpr ⟨h, hrange⟩, Except.toOption]

/-- A task can be asked for: there is a path, and the number of jobs is in its range. -/
def TaskAskable : Task → Prop
  | .verify path jobs _ => path ≠ "" ∧ 1 ≤ jobs ∧ jobs ≤ 65535
  | .toolStatus path _ => path ≠ ""

/-- What can be asked for. -/
structure Askable (i : Invocation) : Prop where
  task : TaskAskable i.task
  config : i.config ≠ some ""
  verbosity : i.verbosity ≤ 255

theorem TaskAskable.path_ne (h : TaskAskable t) : t.path ≠ "" := by
  cases t with
  | verify => exact h.1
  | toolStatus => exact h

/-- The task of a command, with the options that ask for it among others. -/
theorem TaskChoices.taskOf_eq (h : TaskChoices t own) (ht : TaskAskable t)
    (hperm : cs.Perm (globalChoices config verbosity quiet ++ own)) :
    taskOf t.path cs t.level = t := by
  cases h with
  | verify hjobs hformat =>
    obtain ⟨j, hj, rfl⟩ := hjobs.exists_filterMap ht.2
    obtain ⟨f, hf, rfl⟩ := hformat.exists_filterMap
    have hjobs? : lastOf Choice.jobs? cs = j := by
      refine lastOf_own (fun _ => rfl) rfl rfl hperm ?_
      rw [List.filterMap_append, hj, hformat.jobs?_eq_nil, List.append_nil]
    have hformat? : lastOf Choice.format? cs = f := by
      refine lastOf_own (fun _ => rfl) rfl rfl hperm ?_
      rw [List.filterMap_append, hf, hjobs.format?_eq_nil, List.nil_append]
    rw [Task.level, Task.path, taskOf, hjobs?, hformat?]
    exact nofun
  | toolStatus hformat =>
    obtain ⟨f, hf, rfl⟩ := hformat.exists_filterMap
    rw [Task.level, Task.path, taskOf, lastOf_own (fun _ => rfl) rfl rfl hperm hf]

/-- The options of all levels come to what they ask for. -/
theorem ofLayers_of_asks (hi : Askable i) (h : Asks css.flatten i)
    (hverbose : AtOneLevel .verbose css) (hne : css ≠ []) :
    Invocation.ofLayers i.task.level (layersOf i.task.path css) = i := by
  have hquiet : decide (.quiet ∈ css.flatten) = i.quiet := by
    rw [Bool.eq_iff_iff, decide_eq_true_eq]
    exact quiet_mem_iff_of_asks h
  have htask : taskOf i.task.path css.flatten i.task.level = i.task := by
    obtain ⟨own, hown, hperm⟩ := h
    exact hown.taskOf_eq hi.task hperm
  rw [ofLayers_layersOf hne hverbose, lastOf_config?_of_asks h, count_verbose_of_asks h,
    Nat.min_eq_left hi.verbosity, hquiet, htask]

/-- Options that ask for something can be taken in. -/
theorem TaskChoices.acceptable (h : TaskChoices t own) (ht : TaskAskable t)
    (hconfig : config ≠ some "") : Acceptable (globalChoices config verbosity quiet ++ own) := by
  cases h with
  | toolStatus hformat => exact (acceptable_iff (.inl rfl) hformat).mpr ⟨hconfig, nofun⟩
  | verify hjobs hformat =>
    cases hjobs with
    | left => exact (acceptable_iff (.inl rfl) hformat).mpr ⟨hconfig, nofun⟩
    | written h =>
      refine (acceptable_iff (.inr ⟨_, rfl⟩) hformat).mpr ⟨hconfig, fun c hc => ?_⟩
      rw [List.mem_singleton.mp hc]
      exact ⟨_, jobs?_eq_ok_iff.mpr ⟨h, ht.2⟩⟩

/-! ### Command lines in any arrangement -/

theorem hasCommands_level (t : Task) : t.level.hasCommands = false := by
  cases t <;> rfl

/-- A command line that asks for something is read as that. -/
theorem ofWords_of_asks (hi : Askable i) (h : Asks css.flatten i)
    (hverbose : AtOneLevel .verbose css) (hline : Line i.task.path i.task.level .top css words) :
    Invocation.ofWords words = .ok i := by
  obtain ⟨own, hown, hperm⟩ := h
  have hacceptable : Acceptable css.flatten := (hown.acceptable hi.task hi.config).perm hperm
  rw [ofWords_line_iff (hasCommands_level _) hline]
  exact ⟨hi.task.path_ne, hacceptable.of_flatten,
    (ofLayers_of_asks hi ⟨own, hown, hperm⟩ hverbose hline.ne_nil).symm⟩

example :
    Invocation.ofWords ["tools", "-qv", "status", "--format=json", "-cgate.toml", "--", "-v"] =
      .ok ⟨.toolStatus "-v" .json, some "gate.toml", 1, true⟩ := by
  rfl

/-- Whether a command line with a number of jobs is read at all rests with that number. -/
theorem exists_ofWords_iff {number : String} (hconfig : config ≠ some "") (hpath : path ≠ "")
    (hformat : FormatChoice format fs)
    (hperm : css.flatten.Perm (globalChoices config verbosity quiet ++ ([.jobs number] ++ fs)))
    (hline : Line path .verify .top css words) :
    (∃ i, Invocation.ofWords words = .ok i) ↔ ∃ n, jobs? number = .ok n := by
  -- Only the number may keep the options from being taken in, at whatever level it stands.
  have hacceptable : (∀ cs ∈ css, Acceptable cs) ↔ ∃ n, jobs? number = .ok n := by
    constructor
    · intro h
      have hjobs : .jobs number ∈ css.flatten := hperm.mem_iff.mpr (by simp)
      obtain ⟨cs, hcs, hmem⟩ := List.mem_flatten.mp hjobs
      exact (h cs hcs).readable _ hmem
    · intro h
      refine Acceptable.of_flatten (Acceptable.perm hperm ?_)
      refine (acceptable_iff (.inr ⟨number, rfl⟩) hformat).mpr ⟨hconfig, fun c hc => ?_⟩
      rw [List.mem_singleton.mp hc]
      exact h
  rw [← hacceptable]
  constructor
  · rintro ⟨i, hi⟩
    exact ((ofWords_line_iff rfl hline).mp hi).2.1
  · intro h
    exact ⟨_, (ofWords_line_iff rfl hline).mpr ⟨hpath, h, rfl⟩⟩

/-- **A command line may be arranged in any way.**  What it asks for is what its options say, with
the options in any order, in any spelling and at any level, `verbose` at one level alone, and the
path behind two dashes; and a number of jobs is taken exactly if it is a decimal of 64 bits in the
range. -/
theorem ofWords_arranged :
    (∀ {i : Invocation} {css : List (List Choice)} {words : List String}, Askable i →
      Asks css.flatten i → AtOneLevel .verbose css →
      Line i.task.path i.task.level .top css words → Invocation.ofWords words = .ok i) ∧
    ∀ {config : Option String} {verbosity : Nat} {quiet : Bool} {number path : String}
      {format : Format} {fs : List Choice} {css : List (List Choice)} {words : List String},
      config ≠ some "" → path ≠ "" → FormatChoice format fs →
      css.flatten.Perm (globalChoices config verbosity quiet ++ ([.jobs number] ++ fs)) →
      Line path .verify .top css words →
      ((∃ i, Invocation.ofWords words = .ok i) ↔ ∃ z, Signed64 number z ∧ 1 ≤ z ∧ z ≤ 65535) := by
  refine ⟨ofWords_of_asks, fun hconfig hpath hformat hperm hline => ?_⟩
  rw [exists_ofWords_iff hconfig hpath hformat hperm hline, exists_jobs?_iff]

/-- A path, a file and a number that look like options or are written with a sign, letters that
share a dash, and a number that is too small. -/
theorem ofWords_arranged_clustered :
    Invocation.ofWords
        ["--quiet", "verify", "-vvj", "+8", "--config=--jobs=3", "--format", "json", "--", "-q"] =
      .ok ⟨.verify "-q" 8 .json, some "--jobs=3", 2, true⟩ ∧
    ¬ ∃ i, Invocation.ofWords ["verify", "-j=0", "--", "."] = .ok i := by
  have hask : Askable ⟨.verify "-q" 8 .json, some "--jobs=3", 2, true⟩ :=
    ⟨⟨by decide, by decide, by decide⟩, by decide, by decide⟩
  have hasks : Asks
      [[.quiet], [.verbose, .verbose, .jobs "+8", .config "--jobs=3", .format .json]].flatten
      ⟨.verify "-q" 8 .json, some "--jobs=3", 2, true⟩ := by
    have hnumber : Decimal "+8".toList 8 := integer?_eq_some_iff.mp rfl
    exact ⟨_, .verify (.written hnumber) (.written .json), by decide⟩
  have hletters : Letters .verify [.verbose, .verbose] ['v', 'v'] :=
    .cons ⟨trivial, rfl, rfl⟩ (.cons ⟨trivial, rfl, rfl⟩ .nil)
  have hjobs : OpenWord .verify [.verbose, .verbose] (.jobs "+8") "-vvj" :=
    OpenWord.letters (x := 'j') hletters rfl rfl
  have hfile : ClosedWord .verify [.config "--jobs=3"] "--config=--jobs=3" :=
    ClosedWord.nameWith (c := .config "--jobs=3") trivial rfl
  have hformat : OpenWord .verify [] (.format .json) "--format" :=
    OpenWord.name (c := .format .json) (.inl rfl)
  have hquiet : ClosedWord .top [.quiet] "--quiet" := ClosedWord.name (c := .quiet) trivial rfl
  have hline : Line "-q" .verify .top
      [[.quiet], [.verbose, .verbose, .jobs "+8", .config "--jobs=3", .format .json]]
      ["--quiet", "verify", "-vvj", "+8", "--config=--jobs=3", "--format", "json", "--", "-q"] :=
    .command (.closed hquiet .nil) .verify
      (.path (.apart hjobs rfl nofun (.closed hfile (.apart hformat rfl nofun .nil))))
  have hzero : ClosedWord .verify [.jobs "0"] "-j=0" :=
    ClosedWord.lettersWith (c := .jobs "0") (x := 'j') .nil rfl rfl rfl (.inl rfl)
  have hsmall : Line "." .verify .top [[], [.jobs "0"]] ["verify", "-j=0", "--", "."] :=
    .command .nil .verify (.path (.closed hzero .nil))
  have hlone : [[], [.jobs "0"]].flatten.Perm
      (globalChoices none 0 false ++ ([.jobs "0"] ++ [])) := .refl _
  refine ⟨ofWords_arranged.1 hask hasks (by simp [AtOneLevel]) hline, ?_⟩
  rw [ofWords_arranged.2 (Option.some_ne_none "").symm (by decide) .left hlone hsmall]
  rintro ⟨z, ⟨hz, -, -⟩, hlow, -⟩
  rw [← integer?_eq_some_iff] at hz
  cases hz
  contradiction

end CommandLine
end LintGate
