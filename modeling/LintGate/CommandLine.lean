import LintGate.Report

/-!
# The command line

`verify` lints a repository, `tools status` tells where the tool would come from.
Options may be written in full or, some of them, with one letter; letters may share a
dash, and a value may stand in the next word or be attached.  The options `--config`,
`--verbose` and `--quiet` belong to every command and may stand in front of its name
too; the innermost place counts.

## Main definitions

* `Invocation`, `Task` — what a command line asks for.
* `UsageFault` — why a command line asks for nothing.
* `CommandLine.read` — the words of a command line, from left to right.
* `Invocation.ofWords` — the command line of a list of words.
-/

namespace LintGate

/-- What is to be done. -/
inductive Task
  | verify (path : String) (jobs : Nat) (format : Format)
  | toolStatus (path : String) (format : Format)
  deriving DecidableEq, Repr

/-- What a command line asks for. -/
structure Invocation where
  task : Task
  config : Option String
  verbosity : Nat
  quiet : Bool
  deriving DecidableEq, Repr

/-- Why nothing is to be done. -/
inductive UsageFault
  | helpAsked
  | versionAsked
  /-- Neither a command nor an option is given where a command is needed. -/
  | nothingGiven
  | commandMissing
  | unknownCommand
  | unknownArgument
  /-- A value is missing, empty or not one of those to choose from. -/
  | badValue
  /-- A number cannot be read or is out of range. -/
  | badNumber
  /-- A value is attached to an option that takes none. -/
  | unneededValue
  /-- An option is given twice in one place. -/
  | givenTwice
  deriving DecidableEq, Repr

/-- The exit code: it is no failure to ask for help. -/
def UsageFault.exitCode : UsageFault → Nat
  | .helpAsked | .versionAsked => 0
  | _ => 2

/-- What the user is told if nothing is to be done. -/
def UsageFault.message : UsageFault → String
  | .helpAsked => "Lint every shell script in a repository against a pinned ShellCheck."
  | .versionAsked => "shellcheck-gate"
  | .nothingGiven | .commandMissing => "A command is missing."
  | .unknownCommand => "There is no such command."
  | .unknownArgument => "There is no such option, or there is one argument too many."
  | .badValue => "A value is missing or is not one of those to choose from."
  | .badNumber => "The number of jobs has to be one from 1 to 65535."
  | .unneededValue => "A value is given to an option that takes none."
  | .givenTwice => "An option is given twice."

/-- The forms of a command line. -/
def usageText : String :=
  "Usage: shellcheck-gate [--config FILE] [--verbose] [--quiet] COMMAND\n" ++
    "  verify [PATH] [--jobs N] [--format human|json]\n" ++
    "  tools status [PATH] [--format human|json]\n"

namespace CommandLine

/-! ### Commands and options -/

/-- A place where options stand: in front of any command, or behind one. -/
inductive Level
  | top
  | verify
  | tools
  | status
  deriving DecidableEq, Repr

/-- An option. -/
inductive Switch
  | config
  | verbose
  | quiet
  | help
  | version
  | jobs
  | format
  deriving DecidableEq, Repr

/-- Whether an option takes a value. -/
def Switch.takesValue : Switch → Bool
  | .config | .jobs | .format => true
  | _ => false

namespace Level

/-- The commands that may follow at a level, the command `help` apart. -/
def command? : Level → String → Option Level
  | .top, "verify" => some .verify
  | .top, "tools" => some .tools
  | .tools, "status" => some .status
  | _, _ => none

/-- Whether commands follow at a level. -/
def hasCommands : Level → Bool
  | .top | .tools => true
  | _ => false

/-- Whether a level has an option. -/
def has : Level → Switch → Bool
  | .top, .version => true
  | _, .version => false
  | .verify, .jobs => true
  | _, .jobs => false
  | .verify, .format | .status, .format => true
  | _, .format => false
  | _, _ => true

/-- The option of a name, with the names of all options. -/
def ofName? : String → Option Switch
  | "config" => some .config
  | "verbose" => some .verbose
  | "quiet" => some .quiet
  | "help" => some .help
  | "version" => some .version
  | "jobs" => some .jobs
  | "format" => some .format
  | _ => none

/-- The option of a letter. -/
def ofLetter? : Char → Option Switch
  | 'c' => some .config
  | 'v' => some .verbose
  | 'q' => some .quiet
  | 'h' => some .help
  | 'V' => some .version
  | 'j' => some .jobs
  | _ => none

/-- The option that a name stands for at a level. -/
def long? (l : Level) (name : String) : Option Switch := (ofName? name).filter l.has

/-- The option that a letter stands for at a level. -/
def short? (l : Level) (c : Char) : Option Switch := (ofLetter? c).filter l.has

end Level

/-! ### Values -/

/-- The options given at one level. -/
structure Given where
  config : Option String := none
  verbosity : Nat := 0
  quiet : Bool := false
  jobs : Option Nat := none
  format : Option Format := none
  path : Option String := none
  deriving DecidableEq, Repr

/-- What was read but not taken in yet: an option whose value is due, an option with
its value, or a path. -/
inductive Pending
  | nothing
  | due (s : Switch)
  | value (s : Switch) (v : String)
  | path (v : String)
  deriving DecidableEq, Repr

/-- A decimal integer with a sign or without. -/
def integer? (cs : List Char) : Option Int :=
  let number (ds : List Char) : Option Nat :=
    if !ds.isEmpty && ds.all Char.isDigit then
      some (ds.foldl (fun n d => 10 * n + (d.toNat - 0x30)) 0)
    else none
  match cs with
  | '-' :: ds => (number ds).map fun n => -(n : Int)
  | '+' :: ds => (number ds).map fun n => (n : Int)
  | ds => (number ds).map fun n => (n : Int)

/-- A number of jobs, from 1 to 65535. -/
def jobs? (v : String) : Except UsageFault Nat :=
  match integer? v.toList with
  | some n => if 1 ≤ n ∧ n ≤ 65535 then .ok n.toNat else .error .badNumber
  | none => .error .badNumber

/-- A path, which is not empty. -/
def path? (v : String) : Except UsageFault String := if v = "" then .error .badValue else .ok v

/-- A format by its name. -/
def format? : String → Except UsageFault Format
  | "human" => .ok .human
  | "json" => .ok .json
  | _ => .error .badValue

namespace Given

/-- Takes in an option with a value. -/
def setValue (g : Given) (s : Switch) (v : String) : Except UsageFault Given :=
  match s with
  | .config =>
    if g.config.isSome then .error .givenTwice
    else (path? v).map fun p => { g with config := some p }
  | .jobs =>
    if g.jobs.isSome then .error .givenTwice
    else (jobs? v).map fun n => { g with jobs := some n }
  | .format =>
    if g.format.isSome then .error .givenTwice
    else (format? v).map fun f => { g with format := some f }
  | _ => .error .unneededValue

/-- Takes in an option without a value.  Only `verbose` may be given again, and it is
counted up to 255. -/
def setFlag (g : Given) : Switch → Except UsageFault Given
  | .verbose => .ok { g with verbosity := min (g.verbosity + 1) 255 }
  | .quiet => if g.quiet then .error .givenTwice else .ok { g with quiet := true }
  | .help => .error .helpAsked
  | .version => .error .versionAsked
  | _ => .error .badValue

/-- Takes in what is pending. -/
def settle (g : Given) : Pending → Except UsageFault Given
  | .nothing => .ok g
  | .due _ => .error .badValue
  | .value s v => g.setValue s v
  | .path v => (path? v).map fun p => { g with path := some p }

/-- Whether nothing was given. -/
def isEmpty (g : Given) : Bool := g.config.isNone && g.verbosity == 0 && !g.quiet

end Given

/-! ### Words -/

/-- Takes in an option that is not attached to a value. -/
def readSwitch (g : Given) (p : Pending) (s : Switch) : Except UsageFault (Given × Pending) :=
  (g.settle p).bind fun g =>
    if s.takesValue then .ok (g, .due s) else (g.setFlag s).map fun g => (g, .nothing)

/-- Takes in an option that a value is attached to. -/
def readAttached (g : Given) (p : Pending) (s : Switch) (v : List Char) :
    Except UsageFault (Given × Pending) :=
  (g.settle p).bind fun g => (g.setValue s (String.ofList v)).map fun g => (g, .nothing)

/-- Reads the letters behind a dash.  The letter of an option with a value takes the
rest of the word for it. -/
def readLetters (l : Level) (g : Given) (p : Pending) :
    List Char → Except UsageFault (Given × Pending)
  | [] => .ok (g, p)
  | c :: cs =>
    match l.short? c with
    | none => .error .unknownArgument
    | some s =>
      if s.takesValue then
        match cs with
        | [] => readSwitch g p s
        -- One equals sign may stand between the letter and its value.
        | '=' :: v => readAttached g p s v
        | v => readAttached g p s v
      else (readSwitch g p s).bind fun (g, p) => readLetters l g p cs

/-- Reads a name behind two dashes. -/
def readName (l : Level) (g : Given) (p : Pending) (cs : List Char) :
    Except UsageFault (Given × Pending) :=
  match l.long? (String.ofList (cs.takeWhile (· != '='))), cs.dropWhile (· != '=') with
  | none, _ => .error .unknownArgument
  | some s, [] => readSwitch g p s
  | some s, _ :: v => if s.takesValue then readAttached g p s v else .error .unneededValue

/-- A word that is no option: the value that is due, or the path of a command. -/
def readOperand (l : Level) (g : Given) (p : Pending) (trailing : Bool) (w : String) :
    Except UsageFault (Given × Pending) :=
  match p, trailing with
  | .due s, false => .ok (g, .value s w)
  | p, _ =>
    if l.hasCommands then
      if trailing && ((l.command? w).isSome || w == "help") then .error .unknownArgument
      else .error .unknownCommand
    else
      match p with
      -- A second path is a fault whatever is pending.
      | .path _ => .error .unknownArgument
      | p =>
        if g.path.isSome then .error .unknownArgument
        else (g.settle p).map fun g => (g, .path w)

/-- Reads a word that is no command: an option, a value or a path. -/
def readWord (l : Level) (g : Given) (p : Pending) (trailing : Bool) (w : String) :
    Except UsageFault (Given × Pending) :=
  match trailing, w.toList with
  | false, '-' :: '-' :: c :: cs => readName l g p (c :: cs)
  | false, '-' :: c :: cs => readLetters l g p (c :: cs)
  | _, _ => readOperand l g p trailing w

/-- What `help` answers: the words behind it have to name a command. -/
def readHelp : Option Level → List String → UsageFault
  | _, [] => .helpAsked
  | none, _ :: _ => .unknownCommand
  | some l, w :: ws =>
    match l.command? w with
    | some l => readHelp (some l) ws
    | none => if l.hasCommands && w == "help" then readHelp none ws else .unknownCommand

/-- The options given at each level, from the outermost to that of the command. -/
abbrev Layers := List Given

/-- Whether a word in this place may name a command. -/
def commandDue (p : Pending) (trailing : Bool) : Bool :=
  match p, trailing with
  | .due _, _ | _, true => false
  | _, false => true

/-- Reads the words of a level and of the levels behind it. -/
def read (l : Level) (g : Given) (p : Pending) (trailing : Bool) :
    List String → Except UsageFault (Level × Layers)
  | [] =>
    (g.settle p).bind fun g =>
      if l.hasCommands then .error (if g.isEmpty then .nothingGiven else .commandMissing)
      else .ok (l, [g])
  | w :: ws =>
    match if commandDue p trailing then l.command? w else none with
    | some inner =>
      -- What is pending in front of a command is taken in last: faults behind it win.
      (read inner {} .nothing false ws).bind fun (leaf, layers) =>
        (g.settle p).map fun g => (leaf, g :: layers)
    | none =>
      if commandDue p trailing && l.hasCommands && w == "help" then .error (readHelp (some l) ws)
      else if !trailing && w == "--" then read l g p true ws
      else (readWord l g p trailing w).bind fun (g, p) => read l g p trailing ws

end CommandLine

namespace Invocation

open CommandLine

/-- The value of the innermost level that has one. -/
def innermost {α : Type} (f : Given → Option α) (layers : Layers) : Option α :=
  layers.foldl (fun found g => (f g).or found) none

/-- What the options of all levels come to. -/
def ofLayers (leaf : Level) (layers : Layers) : Invocation :=
  let path := (innermost Given.path layers).getD "."
  let format := (innermost Given.format layers).getD .human
  { task :=
      match leaf with
      | .status => .toolStatus path format
      | _ => .verify path ((innermost Given.jobs layers).getD 1) format
    config := innermost Given.config layers
    verbosity :=
      (innermost (fun g => if g.verbosity = 0 then none else some g.verbosity) layers).getD 0
    quiet := layers.any Given.quiet }

/-- What a list of words asks for. -/
def ofWords (ws : List String) : Except UsageFault Invocation :=
  (read .top {} .nothing false ws).map fun (leaf, layers) => ofLayers leaf layers

end Invocation
end LintGate
