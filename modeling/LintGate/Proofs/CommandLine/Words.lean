import LintGate.CommandLine
import LintGate.Proofs.Text.Blank
import Mathlib.Data.List.Forall2

/-!
# The words that write options

An option is written with its name behind two dashes or with its letter behind one.  Letters may
share a dash.  A value is attached to its option or stands in the next word, and then it must not
look like an option itself.

## Main definitions

* `CommandLine.Choice` — an option with its value.
* `CommandLine.Given.takeAll` — takes in options, one after the other.
* `CommandLine.ClosedWord`, `CommandLine.OpenWord` — the words that write options, with a value
  due at the end or without.
* `CommandLine.Written` — the words that write a list of options.

## Main results

* `CommandLine.readWord_closed`, `CommandLine.readWord_open` — a word that writes options is read
  by taking in first what is pending and then the options.
-/

namespace LintGate
namespace CommandLine

/-! ### Options -/

/-- An option with its value. -/
inductive Choice
  | config (file : String)
  | verbose
  | quiet
  | jobs (number : String)
  | format (f : Format)
  deriving DecidableEq, Repr

namespace Choice

/-- Which option it is. -/
def switch : Choice → Switch
  | config _ => .config
  | verbose => .verbose
  | quiet => .quiet
  | jobs _ => .jobs
  | format _ => .format

/-- The name of the option. -/
def name : Choice → String
  | config _ => "config"
  | verbose => "verbose"
  | quiet => "quiet"
  | jobs _ => "jobs"
  | format _ => "format"

/-- The letter of the option, if it has one. -/
def letter? : Choice → Option Char
  | config _ => some 'c'
  | verbose => some 'v'
  | quiet => some 'q'
  | jobs _ => some 'j'
  | format _ => none

/-- The value, if the option takes one. -/
def value? : Choice → Option String
  | config file => some file
  | verbose | quiet => none
  | jobs number => some number
  | format .human => some "human"
  | format .json => some "json"

/-- A level has the options of every command, and those of its own command. -/
def StandsAt (l : Level) : Choice → Prop
  | config _ | verbose | quiet => True
  | jobs _ => l = .verify
  | format _ => l = .verify ∨ l = .status

variable {l : Level} {c : Choice} {x : Char}

theorem takesValue_switch (c : Choice) : c.switch.takesValue = c.value?.isSome := by
  rcases c with _ | _ | _ | _ | ⟨_ | _⟩ <;> rfl

theorem has_switch (h : c.StandsAt l) : l.has c.switch = true := by
  cases c with
  | config | verbose | quiet => cases l <;> rfl
  | jobs =>
    cases h
    rfl
  | format => rcases h with rfl | rfl <;> rfl

theorem long?_name (h : c.StandsAt l) : l.long? c.name = some c.switch := by
  have hname : Level.ofName? c.name = some c.switch := by cases c <;> rfl
  rw [Level.long?, hname, Option.filter_some, if_pos (has_switch h)]

theorem short?_letter (h : c.StandsAt l) (hx : c.letter? = some x) :
    l.short? x = some c.switch := by
  have hletter : Level.ofLetter? x = some c.switch := by
    cases c <;> cases hx <;> rfl
  rw [Level.short?, hletter, Option.filter_some, if_pos (has_switch h)]

end Choice

/-- Takes in an option with its value. -/
def Given.take (g : Given) (c : Choice) : Except UsageFault Given :=
  match c.value? with
  | some v => g.setValue c.switch v
  | none => g.setFlag c.switch

/-- Takes in options, one after the other. -/
def Given.takeAll (g : Given) : List Choice → Except UsageFault Given
  | [] => .ok g
  | c :: cs => (g.take c).bind fun g => g.takeAll cs

theorem Given.takeAll_append (g : Given) (cs ds : List Choice) :
    g.takeAll (cs ++ ds) = (g.takeAll cs).bind fun g => g.takeAll ds := by
  induction cs generalizing g with
  | nil => rfl
  | cons c cs ih =>
    rw [List.cons_append, takeAll, takeAll]
    cases g.take c with
    | error e => rfl
    | ok g => exact ih g

/-! ### Words -/

/-- A word that is no option: a dash is one only with something behind it. -/
def IsPlain (w : String) : Prop := ∀ c cs, w.toList ≠ '-' :: c :: cs

/-- The letters of options without values. -/
def Letters (l : Level) : List Choice → List Char → Prop :=
  List.Forall₂ fun c x => c.StandsAt l ∧ c.letter? = some x ∧ c.value? = none

/-- What may stand behind a letter for its value: an equals sign and the value, or the value alone
unless it is empty or starts with such a sign. -/
def Attaches (v : String) (text : List Char) : Prop :=
  text = '=' :: v.toList ∨ (text = v.toList ∧ ∃ c cs, text = c :: cs ∧ c ≠ '=')

/-- A word that writes options with their values. -/
inductive ClosedWord (l : Level) : List Choice → String → Prop
  | name {c : Choice} (hl : c.StandsAt l) (hv : c.value? = none) :
      ClosedWord l [c] ("--" ++ c.name)
  | nameWith {c : Choice} {v : String} (hl : c.StandsAt l) (hv : c.value? = some v) :
      ClosedWord l [c] ("--" ++ c.name ++ "=" ++ v)
  | letters {cs : List Choice} {xs : List Char} {c : Choice} {x : Char} (h : Letters l cs xs)
      (hl : c.StandsAt l) (hx : c.letter? = some x) (hv : c.value? = none) :
      ClosedWord l (cs ++ [c]) (String.ofList ('-' :: (xs ++ [x])))
  | lettersWith {cs : List Choice} {xs : List Char} {c : Choice} {x : Char} {v : String}
      {text : List Char} (h : Letters l cs xs) (hl : c.StandsAt l) (hx : c.letter? = some x)
      (hv : c.value? = some v) (htext : Attaches v text) :
      ClosedWord l (cs ++ [c]) (String.ofList ('-' :: (xs ++ x :: text)))

/-- A word that writes options, the last of which has its value in the next word. -/
inductive OpenWord (l : Level) : List Choice → Choice → String → Prop
  | name {c : Choice} (hl : c.StandsAt l) :
      OpenWord l [] c ("--" ++ c.name)
  | letters {cs : List Choice} {xs : List Char} {c : Choice} {x : Char} (h : Letters l cs xs)
      (hl : c.StandsAt l) (hx : c.letter? = some x) :
      OpenWord l cs c (String.ofList ('-' :: (xs ++ [x])))

/-- The words that write options.  A file in a word of its own must not look like an option; a
format does not, and a number that does is no number of jobs. -/
inductive Written (l : Level) : List Choice → List String → Prop
  | nil : Written l [] []
  | closed {cs ds : List Choice} {w : String} {ws : List String} (hw : ClosedWord l cs w)
      (h : Written l ds ws) : Written l (cs ++ ds) (w :: ws)
  | apart {cs ds : List Choice} {c : Choice} {w v : String} {ws : List String}
      (hw : OpenWord l cs c w) (hv : c.value? = some v)
      (hfile : ∀ file, c = .config file → IsPlain file) (h : Written l ds ws) :
      Written l (cs ++ c :: ds) (w :: v :: ws)

/-! ### Reading a word -/

variable {l : Level} {g : Given} {p : Pending} {c : Choice} {cs : List Choice} {x : Char}
  {xs text : List Char} {v w : String}

theorem readSwitch_of_none (hv : c.value? = none) :
    readSwitch g p c.switch =
      (g.settle p).bind fun g => (g.take c).map fun g => (g, .nothing) := by
  simp only [readSwitch, Choice.takesValue_switch, Given.take, hv, Option.isSome_none,
    Bool.false_eq_true, if_false]

theorem readSwitch_of_some (hv : c.value? = some v) :
    readSwitch g p c.switch = (g.settle p).bind fun g => .ok (g, .due c.switch) := by
  simp only [readSwitch, Choice.takesValue_switch, hv, Option.isSome_some, if_true]

theorem readAttached_of_some (hv : c.value? = some v) :
    readAttached g p c.switch v.toList =
      (g.settle p).bind fun g => (g.take c).map fun g => (g, .nothing) := by
  simp only [readAttached, Given.take, hv, String.ofList_toList]

/-! ### Names -/

theorem name_ne_nil (c : Choice) : c.name.toList ≠ [] := by
  cases c <;> simp [Choice.name]

theorem equals_not_mem_name (c : Choice) : ∀ x ∈ c.name.toList, (x != '=') = true := by
  cases c <;> simp [Choice.name]

theorem readWord_name (h : w.toList = '-' :: '-' :: xs) (hne : xs ≠ []) :
    readWord l g p false w = readName l g p xs := by
  obtain ⟨y, ys, rfl⟩ := List.exists_cons_of_ne_nil hne
  unfold readWord
  rw [h]
  rfl

/-- A name alone. -/
theorem readWord_bare (hl : c.StandsAt l) :
    readWord l g p false ("--" ++ c.name) = readSwitch g p c.switch := by
  have hlist : ("--" ++ c.name).toList = '-' :: '-' :: c.name.toList := by simp
  have hall := equals_not_mem_name c
  rw [readWord_name hlist (name_ne_nil c), readName, List.takeWhile_eq_self_iff.mpr hall,
    List.dropWhile_eq_nil_iff.mpr hall, String.ofList_toList, Choice.long?_name hl]

/-- A name with a value attached to it. -/
theorem readWord_nameWith (hl : c.StandsAt l) (hv : c.value? = some v) :
    readWord l g p false ("--" ++ c.name ++ "=" ++ v) = readAttached g p c.switch v.toList := by
  have hlist : ("--" ++ c.name ++ "=" ++ v).toList =
      '-' :: '-' :: (c.name.toList ++ '=' :: v.toList) := by simp
  obtain ⟨htake, hdrop⟩ := Text.takeWhile_append_of_stop (equals_not_mem_name c)
    (b := '=' :: v.toList) rfl
  rw [readWord_name hlist (by simp), readName, htake, hdrop, String.ofList_toList,
    Choice.long?_name hl]
  simp only [Choice.takesValue_switch, hv, Option.isSome_some, if_true]

/-! ### Letters -/

theorem letter_ne_dash (hx : c.letter? = some x) : x ≠ '-' := by
  cases c <;> cases hx <;> decide

/-- Letters do not start with a second dash. -/
theorem Letters.exists_cons (h : Letters l cs xs) (hx : c.letter? = some x) (text : List Char) :
    ∃ y ys, xs ++ x :: text = y :: ys ∧ y ≠ '-' := by
  cases h with
  | nil => exact ⟨x, text, rfl, letter_ne_dash hx⟩
  | cons hc _ => exact ⟨_, _, rfl, letter_ne_dash hc.2.1⟩

theorem readWord_letters (h : w.toList = '-' :: x :: xs) (hx : x ≠ '-') :
    readWord l g p false w = readLetters l g p (x :: xs) := by
  unfold readWord
  rw [h]
  split
  · next heq => exact absurd (List.cons.inj (List.cons.inj heq).2).1 hx
  · next heq => rw [(List.cons.inj heq).2]
  · next h => exact absurd rfl (h x xs rfl)

/-- The letter of an option without a value is taken in before what is behind it. -/
theorem readLetters_cons (hl : c.StandsAt l) (hx : c.letter? = some x) (hv : c.value? = none) :
    readLetters l g p (x :: xs) =
      (g.settle p).bind fun g => (g.take c).bind fun g => readLetters l g .nothing xs := by
  simp only [readLetters, Choice.short?_letter hl hx, Choice.takesValue_switch, hv,
    readSwitch_of_none hv, Option.isSome_none, Bool.false_eq_true, if_false]
  cases g.settle p with
  | error e => rfl
  | ok g =>
    simp only [Except.bind]
    cases g.take c <;> rfl

/-- The letter of an option whose value is attached. -/
theorem readLetters_attached (hl : c.StandsAt l) (hx : c.letter? = some x)
    (hv : c.value? = some v) (htext : Attaches v text) :
    readLetters l g p (x :: text) = readAttached g p c.switch v.toList := by
  simp only [readLetters, Choice.short?_letter hl hx, Choice.takesValue_switch, hv,
    Option.isSome_some, if_true]
  rcases htext with rfl | ⟨rfl, y, ys, hy, hne⟩
  · rfl
  · rw [hy]
    split
    · next h => cases h
    · next h => exact absurd (List.cons.inj h).1 hne
    · rfl

/-- The letter of an option whose value is in the next word. -/
theorem readLetters_open (hl : c.StandsAt l) (hx : c.letter? = some x) (hv : c.value? = some v) :
    readLetters l g p [x] = readSwitch g p c.switch := by
  simp only [readLetters, Choice.short?_letter hl hx, Choice.takesValue_switch, hv,
    Option.isSome_some, if_true]

/-- Letters of options without values, in front of letters that take in first what is pending. -/
theorem readLetters_append {f : Given → Except UsageFault (Given × Pending)}
    (h : Letters l cs xs) (hfirst : ∀ g p, readLetters l g p text = (g.settle p).bind f) :
    readLetters l g p (xs ++ text) = (g.settle p).bind fun g => (g.takeAll cs).bind f := by
  induction h generalizing g p with
  | nil => exact hfirst g p
  | cons hc _ ih =>
    rw [List.cons_append, readLetters_cons hc.1 hc.2.1 hc.2.2]
    refine congrArg (Except.bind _) (funext fun g => ?_)
    rw [Given.takeAll]
    cases g.take _ with
    | error e => rfl
    | ok g => exact ih

/-- A dash, letters of options without values, and letters that take in first what is pending. -/
theorem readWord_append {f : Given → Except UsageFault (Given × Pending)} (h : Letters l cs xs)
    (hx : c.letter? = some x)
    (hfirst : ∀ g p, readLetters l g p (x :: text) = (g.settle p).bind f) :
    readWord l g p false (String.ofList ('-' :: (xs ++ x :: text))) =
      (g.settle p).bind fun g => (g.takeAll cs).bind f := by
  obtain ⟨y, ys, hlist, hy⟩ := h.exists_cons hx text
  rw [readWord_letters (by rw [String.toList_ofList, hlist]) hy, ← hlist,
    readLetters_append h hfirst]

/-! ### Words of both kinds -/

theorem Given.takeAll_singleton (g : Given) (c : Choice) : g.takeAll [c] = g.take c := by
  rw [takeAll]
  cases g.take c <;> rfl

/-- A word that writes options with their values: what is pending is taken in first, then the
options. -/
theorem readWord_closed (hw : ClosedWord l cs w) : readWord l g p false w =
    (g.settle p).bind fun g => (g.takeAll cs).map fun g => (g, .nothing) := by
  have hlast : ∀ (cs : List Choice) (c : Choice),
      (fun g : Given => (g.takeAll (cs ++ [c])).map fun g => (g, Pending.nothing)) =
        fun g => (g.takeAll cs).bind fun g => (g.take c).map fun g => (g, .nothing) := by
    intro cs c
    funext g
    rw [Given.takeAll_append]
    cases g.takeAll cs with
    | error e => rfl
    | ok g => simp only [Except.bind, Given.takeAll_singleton]
  cases hw with
  | name hl hv =>
    simp only [Given.takeAll_singleton]
    rw [readWord_bare hl, readSwitch_of_none hv]
  | nameWith hl hv =>
    simp only [Given.takeAll_singleton]
    rw [readWord_nameWith hl hv, readAttached_of_some hv]
  | letters h hl hx hv =>
    rw [hlast]
    refine readWord_append h hx fun g p => ?_
    rw [readLetters_cons hl hx hv]
    refine congrArg (Except.bind _) (funext fun g => ?_)
    cases g.take _ <;> rfl
  | lettersWith h hl hx hv htext =>
    rw [hlast]
    refine readWord_append h hx fun g p => ?_
    rw [readLetters_attached hl hx hv htext, readAttached_of_some hv]

/-- A word that leaves a value due: what is pending is taken in first, then the options before
the last one. -/
theorem readWord_open (hw : OpenWord l cs c w) (hv : c.value? = some v) : readWord l g p false w =
    (g.settle p).bind fun g => (g.takeAll cs).map fun g => (g, .due c.switch) := by
  cases hw with
  | name hl =>
    rw [readWord_bare hl, readSwitch_of_some hv]
    rfl
  | letters h hl hx =>
    rw [readWord_append h hx fun g p =>
      (readLetters_open hl hx hv).trans (readSwitch_of_some hv)]
    refine congrArg (Except.bind _) (funext fun g => ?_)
    cases g.takeAll _ <;> rfl

end CommandLine
end LintGate
