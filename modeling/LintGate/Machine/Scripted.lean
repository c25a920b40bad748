import LintGate.Machine.FileSystem
import LintGate.Machine.Web
import LintGate.Report

/-!
# A scripted machine

A scripted machine answers the requests of programs from a file system that it keeps
and from *reactions* that are laid down for its commands.  It records the commands that
were run, the paths that were downloaded and what was printed.

## Main definitions

* `Reaction`, `Made` — what a command prints, how it ends and what it makes first.
* `Machine`, `Machine.answer` — the machine and its answers.
* `Machine.play` — a program on the machine.
* `Machine.playInterrupted` — a program that is interrupted while a container starts.
-/

namespace LintGate

/-- What a command makes, or a file tree holds. -/
inductive Made
  | file (content : Bytes)
  | directory
  | link (target : String)
  /-- An executable file, which reacts like every command outside the search path. -/
  | executable
  deriving DecidableEq, Repr

/-- How a command reacts if its arguments start with `args` and, where `last` is given,
end with it. -/
structure Reaction where
  args : List String := []
  last : Option String := none
  output : Output := ⟨[], [], .code 0⟩
  makes : List (String × Made) := []
  deriving DecidableEq, Repr

/-- Whether a reaction is meant for these arguments. -/
def Reaction.fits (r : Reaction) (args : List String) : Bool :=
  r.args.isPrefixOf args && (r.last.isNone || args.getLast? == r.last)

/-- A command that was run, with the directory it ran in. -/
structure Call where
  program : String
  args : List String
  dir : String
  deriving DecidableEq, Repr

/-- A scripted machine. -/
structure Machine where
  files : FileSystem
  /-- The directory in which commands are looked up by their names. -/
  searchDir : Location
  /-- The reactions of the commands in it. -/
  commands : List (String × List Reaction)
  /-- The reactions of all other executables. -/
  elsewhere : List Reaction
  web : Web
  registry : Registry
  /-- The number of names that were made up. -/
  counter : Nat
  calls : List Call
  downloads : List String
  printed : Streams

namespace Machine

/-! ### Files -/

/-- Makes a file, a directory or a link, with the directories above it. -/
def make (fs : FileSystem) (path : String) (m : Made) : FileSystem :=
  let above := String.ofList (path.toList.reverse.dropWhile (· ≠ '/')).reverse
  let fs := (fs.makeDirs above).toOption.getD fs
  let made :=
    match m with
    | .file content => fs.write path content false
    | .executable => fs.write path [] true
    | .directory => fs.makeDirs path
    | .link target =>
      (fs.place path).map fun l => { fs with root := fs.root.put l (.link target.toList) }
  made.toOption.getD fs

/-- Makes a whole file tree below a directory. -/
def makeAll (fs : FileSystem) (dir : String) (tree : List (String × Made)) : FileSystem :=
  tree.foldl (fun fs e => make fs (Path.join dir e.1) e.2) fs

/-- Puts executables for the commands of the search path in place. -/
def setCommands (m : Machine) (commands : List (String × List Reaction))
    (elsewhere : List Reaction) : Machine :=
  let dir : Node := .dir (commands.map fun c => (c.1.toList, .file [] true))
  { m with
    commands, elsewhere
    files := { m.files with root := m.files.root.put m.searchDir dir } }

/-! ### Commands -/

/-- A command that was started: how it reacts, and the directory it runs in. -/
structure Running where
  reaction : Reaction
  dir : Location

/-- The executable that a command names, seen from the directory it runs in. -/
def lookUp (m : Machine) (program : String) (dir : Location) : Except OsFault Location :=
  let fs := { m.files with current := dir }
  let path :=
    if program.toList.contains '/' || program = "" then program
    else Path.join (FileSystem.pathOf m.searchDir) program
  match fs.resolve true path with
  | .error e => .error e
  | .ok l =>
    match fs.root.get? l with
    | some (.file _ true) => .ok l
    | _ => .error .denied

/-- The reaction of an executable to arguments; one that is not laid down prints
nothing and succeeds. -/
def reactionOf (m : Machine) (l : Location) (args : List String) : Reaction :=
  let reactions :=
    if l.dropLast = m.searchDir then
      (m.commands.lookup (String.ofList (l.getLastD []))).getD []
    else m.elsewhere
  (reactions.find? (·.fits args)).getD {}

/-- The directory that a command runs in. -/
def workDir (m : Machine) : Option String → Except OsFault Location
  | none => .ok m.files.current
  | some dir =>
    match m.files.resolve true dir with
    | .error e => .error e
    | .ok l =>
      match m.files.root.get? l with
      | some (.dir _) => .ok l
      | _ => .error .notDirectory

/-- How many bytes an argument may have. -/
def maxArgument : Nat := 131071

/-- Starts a command. -/
def launch (m : Machine) (c : Command) : Except OsFault (Running × Machine) :=
  if c.hasNul then .error .nulInArgument
  else
    -- The directory is entered first, so a fault of it wins over a missing executable.
    (m.workDir c.dir).bind fun dir => (m.lookUp c.program dir).bind fun l =>
      if c.args.any fun a => maxArgument < a.utf8ByteSize then .error .longArgument
      else
        .ok (⟨m.reactionOf l c.args, dir⟩,
          { m with calls := m.calls ++ [⟨c.program, c.args, FileSystem.pathOf dir⟩] })

/-- Ends a command that was started. -/
def conclude (m : Machine) (r : Running) : Output × Machine :=
  (r.reaction.output,
    { m with files := makeAll m.files (FileSystem.pathOf r.dir) r.reaction.makes })

/-! ### Answers -/

/-- Does something to the files, or leaves them as they are. -/
def change (m : Machine) (x : Except OsFault FileSystem) : Except OsFault Unit × Machine :=
  match x with
  | .ok files => (.ok (), { m with files })
  | .error e => (.error e, m)

/-- A number in hexadecimal digits, padded with zeros. -/
def hexName (width n : Nat) : String :=
  let ds := Nat.toDigits 16 n
  String.ofList (List.replicate (width - ds.length) '0' ++ ds)

/-- How many names are tried for something new. -/
def maxTries : Nat := 65536

/-- Puts a node into a directory, under the first name that nothing has: the names have
numbers in them, from one number on. -/
def makeTemp (m : Machine) (dir start tail : String) (x : Node) (number : Nat) :
    Nat → Except OsFault String × Machine
  | 0 => (.error .exists, m)
  | tries + 1 =>
    let path := Path.join dir (start ++ hexName 6 number ++ tail)
    match m.files.place path with
    | .error e => (.error e, m)
    | .ok l =>
      if (m.files.root.get? l).isSome then makeTemp m dir start tail x (number + 1) tries
      else
        (.ok path,
          { m with files := { m.files with root := m.files.root.put l x }, counter := number + 1 })

/-- Prints a text on a standard stream. -/
def printOn (p : Streams) (s : Stream) (text : String) : Streams :=
  match s with
  | .out => { p with out := p.out ++ text }
  | .err => { p with err := p.err ++ text }

/-- Answers a request. -/
def answer : (r : Request) → Machine → r.Answer × Machine
  | .run c, m =>
    match m.launch c with
    | .error e => (.error e, m)
    | .ok (r, m) => ((.ok (m.conclude r).1), (m.conclude r).2)
  | .fetch url, m =>
    let (x, path) := m.web.fetch url
    (x, { m with downloads := m.downloads ++ path.toList })
  | .canonical path, m => (m.files.canonical path, m)
  | .readFile path, m => (m.files.read path, m)
  | .isThere path, m => (m.files.isThere path, m)
  | .isFile path, m => (m.files.isFile path, m)
  | .survey root, m => (m.files.survey root, m)
  | .makeDirs path, m => m.change (m.files.makeDirs path)
  | .tempFile dir start tail, m => m.makeTemp dir start tail (.file [] false) m.counter maxTries
  | .tempDir dir start, m => m.makeTemp dir start "" .empty m.counter maxTries
  | .writeFile path content, m => m.change (m.files.write path content false)
  | .removeFile path, m => m.change (m.files.removeFile path)
  | .removeTree path, m => m.change (m.files.removeTree path)
  | .rename source target, m => m.change (m.files.rename source target)
  | .print s text, m => (.ok (), { m with printed := printOn m.printed s text })
  | .tell text, m => ((), { m with printed := printOn m.printed .err text })
  | .token, m => (hexName 32 m.counter, { m with counter := m.counter + 1 })
  | .registry op, m =>
    let (x, registry) := m.registry.apply op
    (x, { m with registry })

/-- A program on the machine. -/
def play {α : Type} (m : Machine) (p : Program α) : α × Machine := p.run answer m

/-- Whether a command asks a runtime to start a container. -/
def startsContainer (c : Command) : Bool := c.args.head? == some "run"

/-- Runs a program up to the first start of a container, does something else while the
container starts, and ends the start.  What is left of the program is given back, with
the answer of what was done meanwhile; there is none if no container was started. -/
def playInterrupted {α β : Type} (meanwhile : Program β) :
    Program α → Machine → (Option β × Program α) × Machine
  | .done a, m => ((none, .done a), m)
  | .ask (.run c) next, m =>
    match startsContainer c, m.launch c with
    | true, .ok (r, m) =>
      -- The start was called and has not returned yet.
      let (b, m) := m.play meanwhile
      let (o, m) := m.conclude r
      ((some b, next (.ok o)), m)
    | _, _ =>
      let (x, m) := answer (.run c) m
      playInterrupted meanwhile (next x) m
  | .ask r next, m =>
    let (x, m) := answer r m
    playInterrupted meanwhile (next x) m

end Machine
end LintGate
