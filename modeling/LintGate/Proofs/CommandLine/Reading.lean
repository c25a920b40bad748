import LintGate.Proofs.CommandLine.Number
import LintGate.Proofs.CommandLine.Words

/-!
# Reading the words of a command line

What is pending in front of a word is taken in before it, unless the word is the value that is due.
So the words that write options can be read one by one, whatever stands behind them.

## Main definitions

* `CommandLine.IsOption` — a word that looks like an option.
* `CommandLine.TakesFirst` — words that are read after what is pending is taken in.
* `CommandLine.Leads` — the names of the commands.

## Main results

* `CommandLine.read_written` — the words that write options are read by taking in the options.
* `CommandLine.read_command` — the name of a command ends a level.
* `CommandLine.read_path` — a path behind two dashes is taken for what it is.
-/

namespace LintGate
namespace CommandLine

variable {l inner leaf : Level} {g : Given} {p : Pending} {s : Switch} {c : Choice}
  {cs : List Choice} {v w path : String} {ws rest : List String} {r : Level × Layers}

theorem bind_eq_ok_iff {α β : Type} {x : Except UsageFault α} {f : α → Except UsageFault β}
    {b : β} : x.bind f = .ok b ↔ ∃ a, x = .ok a ∧ f a = .ok b := by
  cases x with
  | error e => simp [Except.bind]
  | ok a => simp [Except.bind]

theorem map_eq_ok_iff {α β : Type} {x : Except UsageFault α} {f : α → β} {b : β} :
    x.map f = .ok b ↔ ∃ a, x = .ok a ∧ f a = b := by
  cases x with
  | error e => simp [Except.map]
  | ok a => simp [Except.map]

/-! ### Words that are options -/

/-- A dash with something behind it, which is not a second dash alone. -/
def IsOption (w : String) : Prop := ∃ x xs, w.toList = '-' :: x :: xs ∧ x :: xs ≠ ['-']

theorem ClosedWord.isOption (h : ClosedWord l cs w) : IsOption w := by
  cases h with
  | @name c hl hv =>
    exact ⟨'-', c.name.toList, by simp, fun h => name_ne_nil c (List.cons.inj h).2⟩
  | @nameWith c v hl hv => exact ⟨'-', c.name.toList ++ '=' :: v.toList, by simp, by simp⟩
  | letters h hl hx hv =>
    obtain ⟨y, ys, hlist, hy⟩ := h.exists_cons hx []
    exact ⟨y, ys, by rw [String.toList_ofList, hlist], fun h => hy (List.cons.inj h).1⟩
  | @lettersWith _ _ _ _ _ text h hl hx hv htext =>
    obtain ⟨y, ys, hlist, hy⟩ := h.exists_cons hx text
    exact ⟨y, ys, by rw [String.toList_ofList, hlist], fun h => hy (List.cons.inj h).1⟩

theorem OpenWord.isOption (h : OpenWord l cs c w) : IsOption w := by
  cases h with
  | name hl => exact ⟨'-', c.name.toList, by simp, fun h => name_ne_nil c (List.cons.inj h).2⟩
  | letters h hl hx =>
    obtain ⟨y, ys, hlist, hy⟩ := h.exists_cons hx []
    exact ⟨y, ys, by rw [String.toList_ofList, hlist], fun h => hy (List.cons.inj h).1⟩

theorem command?_of_dash {xs : List Char} (h : w.toList = '-' :: xs) (l : Level) :
    l.command? w = none := by
  unfold Level.command?
  split
  · cases h
  · cases h
  · cases h
  · rfl

/-- An option is read as a word, whatever is pending. -/
theorem read_option (h : IsOption w) : read l g p false (w :: rest) =
    (readWord l g p false w).bind fun (g, p) => read l g p false rest := by
  obtain ⟨x, xs, hlist, hne⟩ := h
  have hcommand : (if commandDue p false = true then l.command? w else none) = none := by
    rw [command?_of_dash hlist, ite_self]
  have hhelp : (w == "help") = false := by
    rw [beq_eq_false_iff_ne]
    rintro rfl
    cases hlist
  have hdashes : (w == "--") = false := by
    rw [beq_eq_false_iff_ne]
    rintro rfl
    exact hne (List.cons.inj hlist).2.symm
  rw [read, hcommand, hhelp, hdashes]
  simp only [Bool.and_false, Bool.false_eq_true, if_false]

/-- A word that is no option is the value that is due. -/
theorem read_due (h : IsPlain v) :
    read l g (.due s) false (v :: rest) = read l g (.value s v) false rest := by
  have hdashes : (v == "--") = false := by
    rw [beq_eq_false_iff_ne]
    rintro rfl
    exact h '-' [] rfl
  have hword : readWord l g (.due s) false v = .ok (g, .value s v) := by
    unfold readWord
    split
    · next heq => exact absurd heq (h _ _)
    · next heq => exact absurd heq (h _ _)
    · rfl
  rw [read, hdashes, hword]
  rfl

/-- If a value is due, words behind two dashes are a fault. -/
theorem read_due_trailing : read l g (.due s) true ws ≠ .ok r := by
  cases ws with
  | nil =>
    rw [read]
    exact nofun
  | cons w ws =>
    have hword : ∃ e, readWord l g (.due s) true w = .error e := by
      unfold readWord
      split
      · next h _ => cases h
      · next h _ => cases h
      · unfold readOperand
        simp only
        split
        · split <;> exact ⟨_, rfl⟩
        · split <;> exact ⟨_, rfl⟩
    obtain ⟨e, he⟩ := hword
    rw [read, he]
    exact nofun

/-- If a value is due, an option is a fault. -/
theorem readWord_due (h : IsOption w) : ∃ e, readWord l g (.due s) false w = .error e := by
  obtain ⟨x, xs, hlist, hne⟩ := h
  by_cases hx : x = '-'
  · subst hx
    have hxs : xs ≠ [] := fun h => hne (h ▸ rfl)
    rw [readWord_name hlist hxs, readName]
    split
    · exact ⟨_, rfl⟩
    · exact ⟨_, rfl⟩
    · split <;> exact ⟨_, rfl⟩
  · rw [readWord_letters hlist hx, readLetters]
    split
    · exact ⟨_, rfl⟩
    · split
      · split <;> exact ⟨_, rfl⟩
      · exact ⟨_, rfl⟩

/-- If a value is due, a word that is not plain is a fault. -/
theorem read_due_of_not_plain (h : ¬ IsPlain v) :
    read l g (.due s) false (v :: rest) ≠ .ok r := by
  simp only [IsPlain, not_forall, not_not] at h
  obtain ⟨x, xs, hlist⟩ := h
  by_cases hdashes : v = "--"
  · subst hdashes
    rw [read]
    exact read_due_trailing
  · have hoption : IsOption v := by
      refine ⟨x, xs, hlist, fun h => hdashes ?_⟩
      rw [← String.toList_inj, hlist, h]
      rfl
    obtain ⟨e, he⟩ := readWord_due (l := l) (g := g) (s := s) hoption
    rw [read_option hoption, he]
    exact nofun

/-! ### Words that write options -/

/-- What is pending is nothing, or an option with its value. -/
def Pending.IsReady : Pending → Prop
  | .nothing | .value _ _ => True
  | .due _ | .path _ => False

theorem isReady_nothing : Pending.nothing.IsReady := trivial

theorem isReady_value : (Pending.value s v).IsReady := trivial

/-- An option has nothing to do with the path. -/
theorem setValue_path {g' : Given} (h : g.setValue s v = .ok g') : g'.path = g.path := by
  cases s with
  | config | jobs | format =>
    simp only [Given.setValue] at h
    split at h
    · cases h
    · obtain ⟨_, -, rfl⟩ := map_eq_ok_iff.mp h
      rfl
  | verbose | quiet | help | version => cases h

theorem settle_path {g' : Given} (hp : p.IsReady) (h : g.settle p = .ok g') :
    g'.path = g.path := by
  cases p with
  | nothing =>
    cases h
    rfl
  | value s v => exact setValue_path h
  | due | path => cases hp

/-- Words are read after what is pending is taken in. -/
def TakesFirst (l : Level) (ws : List String) : Prop :=
  ∀ {g p r}, p.IsReady → (read l g p false ws = .ok r ↔
    ∃ g₀, g.settle p = .ok g₀ ∧ read l g₀ .nothing false ws = .ok r)

theorem settle_value (hv : c.value? = some v) (g : Given) :
    g.settle (.value c.switch v) = g.take c := by
  rw [Given.take, hv, Given.settle]

/-- A value in a word of its own is the value of the option in front of it. -/
theorem read_apart (hrest : TakesFirst l rest) (hv : c.value? = some v)
    (hfile : ∀ file, c = .config file → IsPlain file) :
    read l g (.due c.switch) false (v :: rest) = .ok r ↔
      ∃ g₀, g.take c = .ok g₀ ∧ read l g₀ .nothing false rest = .ok r := by
  by_cases hplain : IsPlain v
  · rw [read_due hplain, hrest isReady_value, settle_value hv]
  · -- only a number may look like an option, and then it is no number of jobs
    have htake : ∀ g₀, g.take c ≠ .ok g₀ := by
      cases c with
      | config file =>
        cases hv
        exact absurd (hfile v rfl) hplain
      | verbose | quiet => cases hv
      | format f =>
        refine absurd (fun x xs h => ?_) hplain
        cases f <;> cases hv <;> cases h
      | jobs number =>
        cases hv
        intro g₀ hg₀
        simp only [IsPlain, not_forall, not_not] at hplain
        obtain ⟨x, xs, hlist⟩ := hplain
        simp only [Given.take, Choice.value?, Choice.switch, Given.setValue] at hg₀
        split at hg₀
        · cases hg₀
        · obtain ⟨n, hn, -⟩ := map_eq_ok_iff.mp hg₀
          exact not_jobs_of_dash hlist ⟨n, hn⟩
    refine iff_of_false (read_due_of_not_plain hplain) ?_
    rintro ⟨g₀, hg₀, -⟩
    exact htake g₀ hg₀

theorem takesFirst_cons {f : Given → Except UsageFault (Given × Pending)} (hw : IsOption w)
    (hread : ∀ g p, readWord l g p false w = (g.settle p).bind f) : TakesFirst l (w :: rest) := by
  intro g p r _
  rw [read_option hw, hread]
  cases g.settle p with
  | error e =>
    refine iff_of_false nofun ?_
    rintro ⟨g₀, hg₀, -⟩
    cases hg₀
  | ok g =>
    simp only [Except.ok.injEq, exists_eq_left', read_option hw, hread]
    rfl

theorem Written.takesFirst (hrest : TakesFirst l rest) (h : Written l cs ws) :
    TakesFirst l (ws ++ rest) := by
  cases h with
  | nil => exact hrest
  | closed hw _ => exact takesFirst_cons hw.isOption fun _ _ => readWord_closed hw
  | apart hw hv _ _ => exact takesFirst_cons hw.isOption fun _ _ => readWord_open hw hv

/-- **The words that write options are read by taking in the options.** -/
theorem read_written (hrest : TakesFirst l rest) (h : Written l cs ws) :
    ∀ {g r}, read l g .nothing false (ws ++ rest) = .ok r ↔
      ∃ g₁, g.takeAll cs = .ok g₁ ∧ read l g₁ .nothing false rest = .ok r := by
  induction h with
  | nil => simp [Given.takeAll]
  | closed hw _ ih =>
    intro g r
    rw [List.cons_append, read_option hw.isOption, readWord_closed hw, Given.takeAll_append]
    simp only [bind_eq_ok_iff, map_eq_ok_iff]
    constructor
    · rintro ⟨_, ⟨_, ⟨⟩, g', hg', rfl⟩, hread⟩
      obtain ⟨g₁, hds, hrest⟩ := ih.mp hread
      exact ⟨g₁, ⟨g', hg', hds⟩, hrest⟩
    · rintro ⟨g₁, ⟨g', hg', hds⟩, hrest⟩
      exact ⟨_, ⟨g, rfl, g', hg', rfl⟩, ih.mpr ⟨g₁, hds, hrest⟩⟩
  | apart hw hv hfile h ih =>
    intro g r
    rw [List.cons_append, List.cons_append, read_option hw.isOption, readWord_open hw hv,
      Given.takeAll_append]
    simp only [bind_eq_ok_iff, map_eq_ok_iff, Given.takeAll]
    constructor
    · rintro ⟨_, ⟨_, ⟨⟩, g', hg', rfl⟩, hread⟩
      obtain ⟨g'', hg'', hread⟩ := (read_apart (h.takesFirst hrest) hv hfile).mp hread
      obtain ⟨g₁, hds, hrest⟩ := ih.mp hread
      exact ⟨g₁, ⟨g', hg', g'', hg'', hds⟩, hrest⟩
    · rintro ⟨g₁, ⟨g', hg', g'', hg'', hds⟩, hread⟩
      refine ⟨_, ⟨g, rfl, g', hg', rfl⟩, (read_apart (h.takesFirst hrest) hv hfile).mpr ?_⟩
      exact ⟨g'', hg'', ih.mpr ⟨g₁, hds, hread⟩⟩

/-! ### Commands -/

/-- The names of the commands. -/
inductive Leads : Level → String → Level → Prop
  | verify : Leads .top "verify" .verify
  | tools : Leads .top "tools" .tools
  | status : Leads .tools "status" .status

/-- The options in front of a command are taken in, and its words are read by themselves. -/
theorem read_command (h : Leads l w inner) (hp : p.IsReady) :
    read l g p false (w :: ws) = .ok r ↔ ∃ g₀ leaf layers, g.settle p = .ok g₀ ∧
      read inner {} .nothing false ws = .ok (leaf, layers) ∧ r = (leaf, g₀ :: layers) := by
  have hcommand : (if commandDue p false = true then l.command? w else none) = some inner := by
    cases p with
    | nothing | value => cases h <;> rfl
    | due | path => cases hp
  rw [read, hcommand]
  simp only [bind_eq_ok_iff, map_eq_ok_iff]
  constructor
  · rintro ⟨⟨leaf, layers⟩, hread, g₀, hg₀, rfl⟩
    exact ⟨g₀, leaf, layers, hg₀, hread, rfl⟩
  · rintro ⟨g₀, leaf, layers, hg₀, hread, rfl⟩
    exact ⟨(leaf, layers), hread, g₀, hg₀, rfl⟩

theorem takesFirst_command (h : Leads l w inner) : TakesFirst l (w :: ws) := by
  intro g p r hp
  rw [read_command h hp]
  refine exists_congr fun g₀ => ?_
  rw [read_command h isReady_nothing]
  constructor
  · rintro ⟨leaf, layers, hg₀, hread, rfl⟩
    exact ⟨hg₀, g₀, leaf, layers, rfl, hread, rfl⟩
  · rintro ⟨hg₀, _, leaf, layers, ⟨⟩, hread, rfl⟩
    exact ⟨leaf, layers, hg₀, hread, rfl⟩

/-! ### A path behind two dashes -/

theorem readOperand_trailing (hl : l.hasCommands = false) (hp : p.IsReady) :
    readOperand l g p true path =
      if g.path.isSome then .error .unknownArgument
      else (g.settle p).map fun g => (g, .path path) := by
  cases p with
  | nothing => simp [readOperand, hl]
  | value s v => simp [readOperand, hl]
  | due | path => cases hp

/-- Behind two dashes a word is no option, whatever it looks like. -/
theorem read_dashes (hl : l.hasCommands = false) :
    read l g p false ["--", path] =
      (readOperand l g p true path).bind fun (g, p) => (g.settle p).map fun g => (l, [g]) := by
  have hcommand : (if commandDue p false = true then l.command? "--" else none) = none := by
    rw [command?_of_dash rfl, ite_self]
  have htrailing : commandDue p true = false := by cases p <;> rfl
  have hword : readWord l g p true path = readOperand l g p true path := by
    unfold readWord
    split
    · next h _ => cases h
    · next h _ => cases h
    · rfl
  rw [read, hcommand]
  simp only [hl, Bool.and_false, Bool.false_and, Bool.false_eq_true, if_false, Bool.not_false,
    beq_self_eq_true, Bool.and_true, if_true]
  rw [read, htrailing, hword]
  simp only [Bool.false_and, Bool.false_eq_true, if_false, Bool.not_true]
  refine congrArg (Except.bind _) (funext fun (g, p) => ?_)
  rw [read, hl]
  cases g.settle p <;> rfl

/-- A path behind two dashes is taken for what it is, unless it is empty. -/
theorem read_path (hl : l.hasCommands = false) (hp : p.IsReady) :
    read l g p false ["--", path] = .ok r ↔ ∃ g₀, g.settle p = .ok g₀ ∧ g₀.path = none ∧
      path ≠ "" ∧ r = (l, [{ g₀ with path := some path }]) := by
  have hsettle : ∀ g : Given, (g.settle (.path path)).map (fun g => (l, [g])) = .ok r ↔
      path ≠ "" ∧ r = (l, [{ g with path := some path }]) := by
    intro g
    by_cases hpath : path = "" <;> simp [Given.settle, path?, hpath, Except.map, eq_comm]
  rw [read_dashes hl, readOperand_trailing hl hp, bind_eq_ok_iff]
  constructor
  · rintro ⟨_, hoperand, hr⟩
    split at hoperand
    · cases hoperand
    · next hnone =>
      obtain ⟨g₀, hg₀, rfl⟩ := map_eq_ok_iff.mp hoperand
      exact ⟨g₀, hg₀, (settle_path hp hg₀).trans (by simpa using hnone), (hsettle g₀).mp hr⟩
  · rintro ⟨g₀, hg₀, hnone, hr⟩
    rw [← settle_path hp hg₀, hnone, hg₀]
    exact ⟨_, rfl, (hsettle g₀).mpr hr⟩

theorem takesFirst_path (hl : l.hasCommands = false) : TakesFirst l ["--", path] := by
  intro g p r hp
  rw [read_path hl hp]
  refine exists_congr fun g₀ => and_congr_right fun _ => ?_
  rw [read_path hl isReady_nothing]
  constructor
  · rintro ⟨hnone, hpath, rfl⟩
    exact ⟨g₀, rfl, hnone, hpath, rfl⟩
  · rintro ⟨_, ⟨⟩, hnone, hpath, rfl⟩
    exact ⟨hnone, hpath, rfl⟩

end CommandLine
end LintGate
