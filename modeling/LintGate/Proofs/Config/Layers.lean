import LintGate.Machine.Scripted
import LintGate.Proofs.Config.Reading
import LintGate.Proofs.Verify.Stages

/-!
# The layers of a configuration

A configuration comes from one file alone: the one that is asked for, else the repository's own,
else the user's.  The defaults take its place where there is no such file.  A file of a lower
layer is never seen, and the user's file cannot end a run.

## Main definitions

* `Still` — a machine that is not changed by a look at its files.
* `Config.Sight`, `Config.see` — what is seen of a file.
* `Config.Decided` — what the layers come to.
* `Config.Required` — the file that has to be a configuration.

## Main results

* `Still.run_snd` — who only looks at files leaves the machine as it is.
* `Config.decided_loadConfig`, `Config.Decided.unique` — the layers come to one thing.
* `Config.Decided.error_iff` — only a required file can end a run.
* `Config.loadConfig_one_file_decides` — **layers never mix.**
-/

namespace LintGate

variable {σ : Type} {answer : (r : Request) → σ → r.Answer × σ}

/-- A machine that is not changed by a look at its files. -/
def Still (answer : (r : Request) → σ → r.Answer × σ) : Prop :=
  ∀ r s, r.Reads → (answer r s).2 = s

/-- Who only looks at files leaves the machine as it is. -/
theorem Still.run_snd {α : Type} {p : Program α} (h : Still answer) (hp : p.Asks Request.Reads)
    (s : σ) : (p.run answer s).2 = s := by
  induction p generalizing s with
  | done a => rfl
  | ask r next ih => rw [Program.run_ask, ih _ (hp.2 _), h r s hp.1]

theorem Machine.still : Still Machine.answer := by
  intro r m h
  cases r with
  | canonical | readFile | isThere | isFile | survey => rfl
  | _ => exact h.elim

namespace Config

/-! ### What is seen of a file -/

/-- What is seen of a file: whether there is anything in its place, and what reading it gives. -/
structure Sight where
  there : Bool
  content : Except OsFault Bytes

/-- What a machine shows of a file. -/
def see (answer : (r : Request) → σ → r.Answer × σ) (s : σ) (path : String) : Sight where
  there := (answer (.isThere path) s).1
  content := (answer (.readFile path) s).1

/-- Reading a file gives what it is read as. -/
theorem readAs_readConfig (path : String) (s : σ) :
    ReadAs path (see answer s path).content ((readConfig path).run.run answer s).1 := by
  obtain ⟨x, hrun, hx⟩ := run_readConfig answer path s
  rw [hrun]
  exact hx

/-! ### One file decides -/

/-- The configuration file of a user. -/
def userPath (home : String) : String := Path.join home fileName

/-- What the layers come to, as the files are seen. -/
inductive Decided (files : String → Sight) (home : Option String) (root : String) :
    Option String → Except Fault Config → Prop
  /-- The file that is asked for decides. -/
  | asked {path : String} {x : Except Fault Config} (h : ReadAs path (files path).content x) :
    Decided files home root (some path) x
  /-- The repository's own file decides, if it is there. -/
  | own {x : Except Fault Config} (hown : (files (localConfigPath root)).there = true)
      (h : ReadAs (localConfigPath root) (files (localConfigPath root)).content x) :
    Decided files home root none x
  /-- The user's file decides, if it is there and spells a configuration. -/
  | user {dir : String} {c : Config} (hown : (files (localConfigPath root)).there = false)
      (hhome : home = some dir) (huser : (files (userPath dir)).there = true)
      (h : ReadAs (userPath dir) (files (userPath dir)).content (.ok c)) :
    Decided files home root none (.ok c)
  /-- Else the defaults hold. -/
  | defaults (hown : (files (localConfigPath root)).there = false)
      (huser : ∀ dir c, home = some dir → (files (userPath dir)).there = true →
        ¬ ReadAs (userPath dir) (files (userPath dir)).content (.ok c)) :
    Decided files home root none (.ok {})

variable {files files' : String → Sight} {home home' : Option String} {root : String}
  {explicit : Option String} {x y : Except Fault Config}

theorem Decided.unique (hx : Decided files home root explicit x)
    (hy : Decided files home root explicit y) : x = y := by
  cases hx with
  | asked h =>
    cases hy with
    | asked h' => exact h.unique h'
  | own hown h =>
    cases hy with
    | own _ h' => exact h.unique h'
    | user hown' | defaults hown' => rw [hown] at hown'; cases hown'
  | user hown hhome huser h =>
    cases hy with
    | own hown' => rw [hown] at hown'; cases hown'
    | user _ hhome' _ h' =>
      cases hhome.symm.trans hhome'
      exact h.unique h'
    | defaults _ hnone => exact absurd h (hnone _ _ hhome huser)
  | defaults hown hnone =>
    cases hy with
    | own hown' => rw [hown] at hown'; cases hown'
    | user _ hhome huser h => exact absurd h (hnone _ _ hhome huser)
    | defaults => rfl

/-- The file that has to be a configuration, if there is one. -/
def Required (files : String → Sight) (root : String) (explicit : Option String) (path : String) :
    Prop :=
  explicit = some path ∨
    explicit = none ∧ path = localConfigPath root ∧ (files path).there = true

/-- **Only a required file can end a run.** -/
theorem Decided.error_iff (hx : Decided files home root explicit x) {f : Fault} :
    x = .error f ↔
      ∃ path, Required files root explicit path ∧ ReadAs path (files path).content (.error f) := by
  constructor
  · rintro rfl
    cases hx with
    | asked h => exact ⟨_, .inl rfl, h⟩
    | own hown h => exact ⟨_, .inr ⟨rfl, rfl, hown⟩, h⟩
  · rintro ⟨path, rfl | ⟨rfl, rfl, hown⟩, h⟩
    · exact hx.unique (.asked h)
    · exact hx.unique (.own hown h)

/-! ### Other files do not matter -/

theorem Decided.congr_asked {path : String} {root' : String}
    (hx : Decided files home root (some path) x)
    (hpath : (files' path).content = (files path).content) :
    Decided files' home' root' (some path) x := by
  cases hx with
  | asked h => exact .asked (hpath ▸ h)

theorem Decided.congr_own (hx : Decided files home root none x)
    (hown : (files (localConfigPath root)).there = true)
    (hpath : files' (localConfigPath root) = files (localConfigPath root)) :
    Decided files' home' root none x := by
  cases hx with
  | own _ h => exact .own (hpath ▸ hown) (hpath ▸ h)
  | user hnone | defaults hnone => rw [hown] at hnone; cases hnone

theorem Decided.congr_user (hx : Decided files home root none x)
    (hown : (files (localConfigPath root)).there = false)
    (hown' : (files' (localConfigPath root)).there = false)
    (huser : ∀ dir, home = some dir → files' (userPath dir) = files (userPath dir)) :
    Decided files' home root none x := by
  cases hx with
  | own hthere => rw [hown] at hthere; cases hthere
  | user _ hhome hthere h =>
    have hsame := huser _ hhome
    exact .user hown' hhome (hsame ▸ hthere) (hsame ▸ h)
  | defaults _ hnone =>
    refine .defaults hown' fun dir c hhome hthere h => ?_
    have hsame := huser dir hhome
    exact hnone dir c hhome (hsame ▸ hthere) (hsame ▸ h)

/-! ### Loading -/

/-- Where the repository has no file, the user's decides if it is one. -/
theorem decided_loadGlobalConfig (h : Still answer) (u : Surroundings) {s : σ}
    (hown : (see answer s (localConfigPath root)).there = false) :
    Decided (see answer s) u.home root none (.ok ((loadGlobalConfig u).run answer s).1) := by
  rw [loadGlobalConfig]
  cases hhome : u.home with
  | none => exact .defaults hown fun dir c hdir => by cases hdir
  | some dir =>
    have hsame : (answer (.isThere (userPath dir)) s).2 = s := h _ s trivial
    have hread : ReadAs (userPath dir) (see answer s (userPath dir)).content
        ((readConfig (userPath dir)).run.run answer s).1 := readAs_readConfig (userPath dir) s
    change Decided _ _ root none (.ok ((Program.ask (.isThere (userPath dir)) fun there =>
      if there = true then (readConfig (userPath dir)).run.bind _ else .done {}).run answer s).1)
    rw [Program.run_ask, hsame]
    cases huser : (answer (.isThere (userPath dir)) s).1 with
    | false =>
      refine .defaults hown fun dir' c hdir hthere _ => ?_
      cases hdir
      exact absurd (huser.symm.trans hthere) Bool.false_ne_true
    | true =>
      rw [if_pos rfl, Program.run_bind]
      cases hx : ((readConfig (userPath dir)).run.run answer s).1 with
      | ok c => exact .user hown rfl huser (hx ▸ hread)
      | error f =>
        refine .defaults hown fun dir' c hdir _ hok => ?_
        cases hdir
        cases hok.unique (hx ▸ hread)

/-- On a machine that stands still, a run comes to what the layers come to. -/
theorem decided_loadConfig (h : Still answer) (u : Surroundings) (explicit : Option String)
    (root : String) (s : σ) :
    Decided (see answer s) u.home root explicit
      ((loadConfig u explicit root).run.run answer s).1 := by
  cases explicit with
  | some path => exact .asked (readAs_readConfig path s)
  | none =>
    have hown : (answer (.isThere (localConfigPath root)) s).2 = s := h _ s trivial
    rw [loadConfig, Action.ask, Action.run_lift_bind, Program.send, Program.ask_bind,
      Program.run_ask, hown, Program.done_bind]
    cases hthere : (answer (.isThere (localConfigPath root)) s).1 with
    | true => exact .own hthere (readAs_readConfig _ s)
    | false =>
      have hlift : (ExceptT.lift (loadGlobalConfig u) : Action Config).run =
          (loadGlobalConfig u).bind fun c => .done (.ok c) := rfl
      rw [if_neg Bool.false_ne_true, hlift, Program.run_bind]
      exact decided_loadGlobalConfig h u hthere

/-- **Layers never mix.**  On a machine that stands still, the configuration is the one of the file
that is asked for, else of the repository's own file, else of the user's; it is the default one if
none of these is there, or if the user's is no configuration.  Nothing else has a part in it: in
two runs, on machines that may differ in all but the file that decides, it is the same.  A run
ends with a fault just if the file that is asked for, or the repository's own, cannot be read or
is no configuration, and the fault names this file. -/
theorem loadConfig_one_file_decides (h : Still answer) (u : Surroundings)
    (explicit : Option String) (root : String) (s : σ) :
    (∀ x, ((loadConfig u explicit root).run.run answer s).1 = x ↔
      Decided (see answer s) u.home root explicit x) ∧
    ((loadConfig u explicit root).run.run answer s).2 = s ∧
    (∀ {σ' : Type} {answer' : (r : Request) → σ' → r.Answer × σ'} (s' : σ') (u' : Surroundings),
      Still answer' →
      (∀ path root', explicit = some path →
        (see answer' s' path).content = (see answer s path).content →
        ((loadConfig u' explicit root').run.run answer' s').1 =
          ((loadConfig u explicit root).run.run answer s).1) ∧
      (explicit = none → (see answer s (localConfigPath root)).there = true →
        see answer' s' (localConfigPath root) = see answer s (localConfigPath root) →
        ((loadConfig u' explicit root).run.run answer' s').1 =
          ((loadConfig u explicit root).run.run answer s).1) ∧
      (explicit = none → (see answer s (localConfigPath root)).there = false →
        (see answer' s' (localConfigPath root)).there = false → u'.home = u.home →
        (∀ dir, u.home = some dir → see answer' s' (userPath dir) = see answer s (userPath dir)) →
        ((loadConfig u' explicit root).run.run answer' s').1 =
          ((loadConfig u explicit root).run.run answer s).1)) ∧
    ∀ f, ((loadConfig u explicit root).run.run answer s).1 = .error f ↔
      ∃ path, Required (see answer s) root explicit path ∧
        ReadAs path (see answer s path).content (.error f) ∧
        ((∃ e, f = .config (.unreadable path e)) ∨
          ∃ reason, f = .config (.malformed path reason)) := by
  have hx := decided_loadConfig h u explicit root s
  refine ⟨fun x => ⟨fun heq => heq ▸ hx, fun hd => hx.unique hd⟩,
    h.run_snd (asks_loadConfig u explicit root) s, ?_, fun f => ?_⟩
  · intro σ' answer' s' u' h'
    refine ⟨?_, ?_, ?_⟩
    · rintro path root' rfl hpath
      exact (decided_loadConfig h' u' _ root' s').unique (hx.congr_asked hpath)
    · rintro rfl hown hpath
      exact (decided_loadConfig h' u' _ root s').unique (hx.congr_own hown hpath)
    · rintro rfl hown hown' hhome huser
      have hx' := decided_loadConfig h' u' none root s'
      rw [hhome] at hx'
      exact hx'.unique (hx.congr_user hown hown' huser)
  · rw [hx.error_iff]
    refine exists_congr fun path => and_congr_right fun _ => ⟨fun hf => ⟨hf, ?_⟩, And.left⟩
    generalize (see answer s path).content = content at hf
    cases hf with
    | malformed _ _ => exact .inr ⟨_, rfl⟩
    | noText _ => exact .inl ⟨_, rfl⟩
    | refused e => exact .inl ⟨_, rfl⟩

/-- A machine with a home directory and with a repository that has a file of its own. -/
def layered (home : List (List Char × Node)) : Machine where
  files := ⟨.dir [("h".toList, .dir home),
    ("r".toList, .dir [(fileName.toList, .file (Text.encode "[sandbox]".toList) false)])], []⟩
  searchDir := []
  commands := []
  elsewhere := []
  web := .offline
  registry := {}
  counter := 0
  calls := []
  downloads := []
  printed := ⟨"", ""⟩

/-- The same machine where the user's file is broken. -/
def layeredBroken : Machine :=
  layered [(fileName.toList, .file (Text.encode "[tool".toList) false)]

/-- A process of a user whose home is known or not. -/
def userWith (home : Option String) : Surroundings := ⟨home, none, "linux", "x86_64"⟩

theorem loadConfig_one_file_decides_layered :
    Still Machine.answer ∧
    (see Machine.answer (layered []) (localConfigPath "/r")).there = true ∧
    (see Machine.answer layeredBroken (userPath "/h")).there = true ∧
    ((readConfig (userPath "/h")).run.run Machine.answer layeredBroken).1.isOk = false ∧
    ((loadConfig (userWith (some "/h")) none "/r").run.run Machine.answer layeredBroken).1 =
      ((loadConfig (userWith none) none "/r").run.run Machine.answer (layered [])).1 := by
  have hown : (see Machine.answer (layered []) (localConfigPath "/r")).there = true := by
    decide +kernel
  have hsame : see Machine.answer layeredBroken (localConfigPath "/r") =
      see Machine.answer (layered []) (localConfigPath "/r") := rfl
  refine ⟨Machine.still, hown, by decide +kernel, by decide +kernel, ?_⟩
  exact ((loadConfig_one_file_decides Machine.still (userWith none) none "/r" (layered [])).2.2.1
    layeredBroken (userWith (some "/h")) Machine.still).2.1 rfl hown hsame

end Config
end LintGate
