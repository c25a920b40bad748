import LintGate.Proofs.CommandLine.Reading
import Mathlib.Data.List.Perm.Basic

/-!
# What options come to

Options are taken in one after the other.  They can be taken in if each value can be read and no
option but `verbose` is given twice at its level.  What they come to does not depend on their
order, and over all levels it is what they come to in the order in which they are written, if
`verbose` stands at one level.

## Main definitions

* `CommandLine.summary` — what options come to at one level.
* `CommandLine.Acceptable` — options that may stand at one level.
* `CommandLine.layersOf` — what options come to at each level, with the path.
* `CommandLine.AtOneLevel` — an option stands at one level alone.

## Main results

* `CommandLine.takeAll_eq_ok_iff` — which options can be taken in, and what they come to.
* `CommandLine.ofLayers_layersOf` — what the options of all levels come to.
-/

namespace LintGate
namespace CommandLine

/-! ### Options of one level -/

namespace Choice

/-- The configuration file that an option names. -/
def config? : Choice → Option String
  | config file => some file
  | _ => none

/-- The number of jobs that an option gives, if it can be read. -/
def jobs? : Choice → Option Nat
  | jobs number => (CommandLine.jobs? number).toOption
  | _ => none

/-- The format that an option gives. -/
def format? : Choice → Option Format
  | format f => some f
  | _ => none

/-- The value of an option is one that it can have. -/
def IsReadable : Choice → Prop
  | config file => file ≠ ""
  | jobs number => ∃ n, CommandLine.jobs? number = .ok n
  | verbose | quiet | format _ => True

end Choice

/-- The last value given by options. -/
def lastOf {α : Type} (pick : Choice → Option α) (cs : List Choice) : Option α :=
  (cs.filterMap pick).getLast?

/-- What is given by options: the last value of each, how often `verbose` stands among them, and
whether `quiet` does. -/
def summary (cs : List Choice) : Given where
  config := lastOf Choice.config? cs
  verbosity := min (cs.count .verbose) 255
  quiet := decide (.quiet ∈ cs)
  jobs := lastOf Choice.jobs? cs
  format := lastOf Choice.format? cs

/-- Options that may stand at one level: all values can be read, and no option but `verbose` is
given twice. -/
structure Acceptable (cs : List Choice) : Prop where
  readable : ∀ c ∈ cs, c.IsReadable
  once : cs.Pairwise fun a b => a.switch = b.switch → a.switch = .verbose

variable {cs ds : List Choice} {c : Choice}

theorem acceptable_concat_iff : Acceptable (cs ++ [c]) ↔
    Acceptable cs ∧ c.IsReadable ∧ ∀ b ∈ cs, b.switch = c.switch → b.switch = .verbose := by
  constructor
  · rintro ⟨hread, honce⟩
    rw [List.pairwise_append] at honce
    exact ⟨⟨fun b hb => hread b (by simp [hb]), honce.1⟩, hread c (by simp),
      fun b hb => honce.2.2 b hb c (by simp)⟩
  · rintro ⟨⟨hread, honce⟩, hc, hnew⟩
    refine ⟨fun b hb => ?_, ?_⟩
    · rcases List.mem_append.mp hb with hb | hb
      · exact hread b hb
      · rwa [List.mem_singleton.mp hb]
    · rw [List.pairwise_append]
      exact ⟨honce, List.pairwise_singleton _ _, fun b hb d hd =>
        List.mem_singleton.mp hd ▸ hnew b hb⟩

theorem lastOf_concat {α : Type} (pick : Choice → Option α) (cs : List Choice) (c : Choice) :
    lastOf pick (cs ++ [c]) = (pick c).or (lastOf pick cs) := by
  rw [lastOf, List.filterMap_append, List.getLast?_append]
  cases h : pick c <;> simp [h, lastOf]

theorem lastOf_eq_none_iff {α : Type} {pick : Choice → Option α} :
    lastOf pick cs = none ↔ ∀ c ∈ cs, pick c = none := by
  simp [lastOf]

/-! ### Taking in options -/

/-- An option other than `verbose` has no value yet exactly if it was not given. -/
theorem lastOf_eq_none_iff_new {α : Type} {pick : Choice → Option α} {s : Switch}
    (hs : s ≠ .verbose) (hpick : ∀ b ∈ cs, pick b = none ↔ b.switch ≠ s) :
    lastOf pick cs = none ↔ ∀ b ∈ cs, b.switch = s → b.switch = .verbose := by
  rw [lastOf_eq_none_iff]
  refine forall₂_congr fun b hb => ?_
  rw [hpick b hb]
  exact ⟨fun hne h => absurd h hne, fun h he => hs (he ▸ h he)⟩

/-- An option that may be given once. -/
theorem once_eq_ok_iff {α β : Type} {o : Option α} {x : Except UsageFault β} {f : β → Given}
    {g g' : Given} {readable new : Prop} (hread : (∃ b, x = .ok b) ↔ readable)
    (hnew : o = none ↔ new) (hvalue : ∀ b, x = .ok b → f b = g') :
    (if o.isSome = true then .error .givenTwice else x.map f) = .ok g ↔
      (readable ∧ new) ∧ g = g' := by
  rw [← hread, ← hnew]
  cases o with
  | none =>
    rw [if_neg (by simp), map_eq_ok_iff]
    constructor
    · rintro ⟨b, hb, rfl⟩
      exact ⟨⟨⟨b, hb⟩, rfl⟩, hvalue b hb⟩
    · rintro ⟨⟨⟨b, hb⟩, -⟩, rfl⟩
      exact ⟨b, hb, hvalue b hb⟩
  | some a => simp

theorem path?_eq_ok_iff {file p : String} : path? file = .ok p ↔ file ≠ "" ∧ p = file := by
  by_cases h : file = "" <;> simp [path?, h, eq_comm]

/-- Another `verbose` is counted. -/
theorem take_verbose : (summary cs).take .verbose = .ok (summary (cs ++ [.verbose])) := by
  have hcount : min (min (cs.count Choice.verbose) 255 + 1) 255 =
      min ((cs ++ [Choice.verbose]).count .verbose) 255 := by
    rw [List.count_append, List.count_singleton_self]
    omega
  simp only [Given.take, Choice.value?, Choice.switch, Given.setFlag, summary, hcount]
  simp [lastOf_concat, Choice.config?, Choice.jobs?, Choice.format?]

/-- Another `quiet` is a fault. -/
theorem take_quiet : (summary cs).take .quiet =
    if .quiet ∈ cs then .error .givenTwice else .ok (summary (cs ++ [.quiet])) := by
  simp [Given.take, Choice.value?, Choice.switch, Given.setFlag, summary, lastOf_concat,
    Choice.config?, Choice.jobs?, Choice.format?]

theorem quiet_is_new_iff :
    (∀ b ∈ cs, b.switch = .quiet → b.switch = .verbose) ↔ .quiet ∉ cs := by
  constructor
  · intro h hmem
    cases h _ hmem rfl
  · intro h b hb hs
    cases b with
    | quiet => exact absurd hb h
    | config | verbose | jobs | format => cases hs

theorem take_format (f : Format) : (summary cs).take (.format f) =
    if (lastOf Choice.format? cs).isSome = true then .error .givenTwice
    else (Except.ok f).map fun f => { summary cs with format := some f } := by
  cases f <;> rfl

/-- **What an option comes to behind others.** -/
theorem take_summary_iff (hcs : ∀ b ∈ cs, b.IsReadable) {g : Given} :
    (summary cs).take c = .ok g ↔
      (c.IsReadable ∧ ∀ b ∈ cs, b.switch = c.switch → b.switch = .verbose) ∧
      g = summary (cs ++ [c]) := by
  cases c with
  | config file =>
    refine once_eq_ok_iff (o := lastOf Choice.config? cs) ?_ ?_ fun p hp => ?_
    · simp [path?_eq_ok_iff, Choice.IsReadable]
    · refine lastOf_eq_none_iff_new (s := .config) (by decide) fun b _ => ?_
      cases b <;> simp [Choice.config?, Choice.switch]
    · rw [(path?_eq_ok_iff.mp hp).2]
      simp [summary, lastOf_concat, Choice.config?, Choice.jobs?, Choice.format?]
  | verbose =>
    rw [take_verbose]
    exact ⟨fun h => ⟨⟨trivial, fun _ _ hs => hs⟩, (Except.ok.inj h).symm⟩,
      fun h => congrArg _ h.2.symm⟩
  | quiet =>
    rw [take_quiet]
    split
    · next hmem =>
      refine iff_of_false ?_ fun h => quiet_is_new_iff.mp h.1.2 hmem
      intro h
      cases h
    · next hmem =>
      exact ⟨fun h => ⟨⟨trivial, quiet_is_new_iff.mpr hmem⟩, (Except.ok.inj h).symm⟩,
        fun h => congrArg _ h.2.symm⟩
  | jobs number =>
    refine once_eq_ok_iff (o := lastOf Choice.jobs? cs) Iff.rfl ?_ fun n hn => ?_
    · refine lastOf_eq_none_iff_new (s := .jobs) (by decide) fun b hb => ?_
      have hread := hcs b hb
      cases b with
      | jobs number =>
        obtain ⟨n, hn⟩ := hread
        simp [Choice.jobs?, Choice.switch, hn, Except.toOption]
      | config | verbose | quiet | format => simp [Choice.jobs?, Choice.switch]
    · simp [summary, lastOf_concat, Choice.config?, Choice.jobs?, Choice.format?, hn,
        Except.toOption]
  | format f =>
    rw [take_format]
    refine once_eq_ok_iff ?_ ?_ fun _ hf => ?_
    · simp [Choice.IsReadable]
    · refine lastOf_eq_none_iff_new (s := .format) (by decide) fun b _ => ?_
      cases b <;> simp [Choice.format?, Choice.switch]
    · cases hf
      simp [summary, lastOf_concat, Choice.config?, Choice.jobs?, Choice.format?]

/-- **What options come to, one after the other.** -/
theorem takeAll_eq_ok_iff {g : Given} :
    Given.takeAll {} cs = .ok g ↔ Acceptable cs ∧ g = summary cs := by
  induction cs using List.reverseRecOn generalizing g with
  | nil =>
    have hnil : Acceptable [] := ⟨nofun, List.Pairwise.nil⟩
    have hsummary : summary [] = {} := rfl
    rw [hsummary]
    exact ⟨fun h => ⟨hnil, (Except.ok.inj h).symm⟩, fun h => congrArg _ h.2.symm⟩
  | append_singleton cs c ih =>
    simp only [Given.takeAll_append, Given.takeAll_singleton, bind_eq_ok_iff, ih,
      acceptable_concat_iff]
    constructor
    · rintro ⟨_, ⟨hcs, rfl⟩, htake⟩
      obtain ⟨hc, rfl⟩ := (take_summary_iff hcs.readable).mp htake
      exact ⟨⟨hcs, hc⟩, rfl⟩
    · rintro ⟨⟨hcs, hc⟩, rfl⟩
      exact ⟨_, ⟨hcs, rfl⟩, (take_summary_iff hcs.readable).mpr ⟨hc, rfl⟩⟩

/-! ### Options of several levels -/

/-- What is given at the levels of a command line: what the options of each come to, and the path
at the innermost. -/
def layersOf (path : String) : List (List Choice) → Layers
  | [] => []
  | [cs] => [{ summary cs with path := some path }]
  | cs :: css => summary cs :: layersOf path css

theorem innermost_cons {α : Type} (f : Given → Option α) (g : Given) (layers : Layers) :
    Invocation.innermost f (g :: layers) = (Invocation.innermost f layers).or (f g) := by
  have hfold : ∀ found, layers.foldl (fun found g => (f g).or found) found =
      (Invocation.innermost f layers).or found := by
    rw [Invocation.innermost]
    induction layers with
    | nil => exact fun _ => rfl
    | cons g layers ih =>
      intro found
      rw [List.foldl_cons, List.foldl_cons, ih, ih ((f g).or none), Option.or_none,
        Option.or_assoc]
  rw [Invocation.innermost, List.foldl_cons, hfold, Option.or_none]

theorem lastOf_append {α : Type} (pick : Choice → Option α) (cs ds : List Choice) :
    lastOf pick (cs ++ ds) = (lastOf pick ds).or (lastOf pick cs) := by
  rw [lastOf, List.filterMap_append, List.getLast?_append]
  rfl

variable {css : List (List Choice)} {path : String}

/-- The innermost value of an option is the last that is written. -/
theorem innermost_layersOf {α : Type} {f : Given → Option α} {pick : Choice → Option α}
    (hf : ∀ cs, f (summary cs) = lastOf pick cs) (hpath : ∀ g p, f { g with path := p } = f g) :
    Invocation.innermost f (layersOf path css) = lastOf pick css.flatten := by
  fun_induction layersOf path css with
  | case1 => rfl
  | case2 cs =>
    rw [innermost_cons, hpath, hf, List.flatten_singleton]
    rfl
  | case3 cs css _ ih => rw [innermost_cons, ih, hf, List.flatten_cons, lastOf_append]

theorem innermost_path (hne : css ≠ []) :
    Invocation.innermost Given.path (layersOf path css) = some path := by
  fun_induction layersOf path css with
  | case1 => exact absurd rfl hne
  | case2 cs => rfl
  | case3 cs css hcss ih => rw [innermost_cons, ih hcss, Option.some_or]

theorem any_quiet_layersOf :
    (layersOf path css).any Given.quiet = decide (.quiet ∈ css.flatten) := by
  fun_induction layersOf path css with
  | case1 => rfl
  | case2 cs => simp [summary]
  | case3 cs css _ ih =>
    rw [List.any_cons, ih]
    simp [summary]

/-- How often `verbose` is given at a level, if it is. -/
def verbosity? (g : Given) : Option Nat := if g.verbosity = 0 then none else some g.verbosity

theorem verbosity?_summary_of_not_mem (h : .verbose ∉ cs) : verbosity? (summary cs) = none := by
  have hcount : (summary cs).verbosity = 0 := by
    rw [summary, List.count_eq_zero.mpr h]
    rfl
  exact if_pos hcount

theorem verbosity?_summary_congr (h : cs.count .verbose = ds.count .verbose) :
    verbosity? (summary cs) = verbosity? (summary ds) := by
  have hsame : (summary cs).verbosity = (summary ds).verbosity := by
    simp only [summary, h]
  rw [verbosity?, verbosity?, hsame]

/-- An option stands at one level alone. -/
def AtOneLevel (c : Choice) (css : List (List Choice)) : Prop :=
  css.Pairwise fun outer inner => c ∉ outer ∨ c ∉ inner

/-- If `verbose` stands at one level, it counts as often as it is written. -/
theorem innermost_verbosity? (h : AtOneLevel .verbose css) :
    Invocation.innermost verbosity? (layersOf path css) = verbosity? (summary css.flatten) := by
  fun_induction layersOf path css with
  | case1 => rfl
  | case2 cs =>
    rw [innermost_cons, List.flatten_singleton]
    exact Option.none_or
  | case3 cs css _ ih =>
    obtain ⟨houter, hinner⟩ := List.pairwise_cons.mp h
    rw [innermost_cons, ih hinner, List.flatten_cons]
    -- Either this level counts and no inner one does, or the inner ones count alone.
    by_cases hmem : .verbose ∈ cs
    · have hrest : .verbose ∉ css.flatten := by
        rw [List.mem_flatten]
        rintro ⟨ds, hds, hverbose⟩
        rcases houter ds hds with h | h
        · exact h hmem
        · exact h hverbose
      rw [verbosity?_summary_of_not_mem hrest, Option.none_or]
      refine verbosity?_summary_congr ?_
      rw [List.count_append, List.count_eq_zero.mpr hrest, Nat.add_zero]
    · rw [verbosity?_summary_of_not_mem hmem, Option.or_none]
      refine verbosity?_summary_congr ?_
      rw [List.count_append, List.count_eq_zero.mpr hmem, Nat.zero_add]

/-- The task of a command with its options. -/
def taskOf (path : String) (cs : List Choice) : Level → Task
  | .status => .toolStatus path ((lastOf Choice.format? cs).getD .human)
  | _ =>
    .verify path ((lastOf Choice.jobs? cs).getD 1) ((lastOf Choice.format? cs).getD .human)

/-- **What the options of all levels come to**, if `verbose` stands at one level: what they come to
in the order in which they are written. -/
theorem ofLayers_layersOf (hne : css ≠ []) (h : AtOneLevel .verbose css) (leaf : Level) :
    Invocation.ofLayers leaf (layersOf path css) =
      { task := taskOf path css.flatten leaf
        config := lastOf Choice.config? css.flatten
        verbosity := min (css.flatten.count .verbose) 255
        quiet := decide (.quiet ∈ css.flatten) } := by
  have hconfig : Invocation.innermost Given.config (layersOf path css) = _ :=
    innermost_layersOf (fun _ => rfl) fun _ _ => rfl
  have hjobs : Invocation.innermost Given.jobs (layersOf path css) = _ :=
    innermost_layersOf (fun _ => rfl) fun _ _ => rfl
  have hformat : Invocation.innermost Given.format (layersOf path css) = _ :=
    innermost_layersOf (fun _ => rfl) fun _ _ => rfl
  have hverbosity : (Invocation.innermost (fun g => if g.verbosity = 0 then none
      else some g.verbosity) (layersOf path css)).getD 0 =
        min (css.flatten.count .verbose) 255 := by
    refine (congrArg (Option.getD · 0) (innermost_verbosity? h)).trans ?_
    rw [verbosity?]
    split
    · next hzero => exact hzero.symm
    · rfl
  unfold Invocation.ofLayers
  rw [innermost_path hne, hconfig, hjobs, hformat, hverbosity, any_quiet_layersOf]
  cases leaf <;> rfl

end CommandLine
end LintGate
