import LintGate.Fault
import LintGate.Lint.Outcome
import LintGate.Registry

/-!
# Programs that talk to a machine

What the gate does to the world is kept apart from what it decides.  A program asks a
machine one thing at a time and goes on with the answer; what machine answers is left
open, so the same program runs on a scripted machine and can be reasoned about on any.

## Main definitions

* `Command` — a command to run.
* `FetchFault`, `Reply` — what a download comes to.
* `Entry` — a directory tree.
* `Request`, `Request.Answer` — what can be asked, and what is answered.
* `Program`, `Program.run`, `Program.history` — programs, their runs, and what they ask
  on the way.
* `Action` — a program that may end with a fault.
-/

namespace LintGate

/-- A command to run: the executable, its arguments, and the directory to run it in if
it is not the current one. -/
structure Command where
  program : String
  args : List String
  dir : Option String
  deriving DecidableEq, Repr

/-- Whether a text holds U+0000, which no word of a command may. -/
def hasNul (s : String) : Bool := s.toList.contains (Char.ofNat 0)

/-- Whether some word of a command holds U+0000. -/
def Command.hasNul (c : Command) : Bool :=
  LintGate.hasNul c.program || c.args.any LintGate.hasNul || c.dir.any LintGate.hasNul

/-- Why a download failed. -/
inductive FetchFault
  /-- The address is none. -/
  | noAddress
  /-- The address is not one of the web. -/
  | foreign (url : String)
  /-- Nobody answers there. -/
  | unreachable (url : String)
  /-- The server refused; `reason` is the name of its status. -/
  | refused (status : Nat) (reason : String) (url : String)
  /-- What the server sent could not be stored. -/
  | notStored
  deriving DecidableEq, Repr

/-- The wording of a failed download. -/
def FetchFault.message : FetchFault → String
  | .noAddress => "builder error"
  | .foreign url => "builder error for url (" ++ url ++ ")"
  | .unreachable url => "error sending request for url (" ++ url ++ ")"
  | .refused status reason url =>
    "HTTP status " ++ (if status < 500 then "client" else "server") ++ " error (" ++
      toString status ++ " " ++ reason ++ ") for url (" ++ url ++ ")"
  | .notStored => "error decoding response body"

/-- What a server answers. -/
structure Reply where
  status : Nat
  body : Bytes
  deriving DecidableEq, Repr

/-- A directory tree.  Only plain files and directories count; links and the like are
`other`. -/
inductive Entry
  | file (name : List Char)
  | other (name : List Char)
  | directory (name : List Char) (children : List Entry)

/-- One of the standard streams. -/
inductive Stream
  | out
  | err
  deriving DecidableEq, Repr

/-- What a program can ask of the machine. -/
inductive Request
  /-- Runs a command to its end. -/
  | run (c : Command)
  /-- Downloads from an address. -/
  | fetch (url : String)
  /-- The absolute path of a file without links in it. -/
  | canonical (path : String)
  | readFile (path : String)
  /-- Whether a path leads to anything, or to a plain file. -/
  | isThere (path : String)
  | isFile (path : String)
  /-- The tree below a directory, or the file at its place. -/
  | survey (root : String)
  /-- Makes a directory and those above it. -/
  | makeDirs (path : String)
  /-- Makes an empty file, or directory, with a new name that starts and ends as told. -/
  | tempFile (dir start tail : String)
  | tempDir (dir start : String)
  | writeFile (path : String) (content : Bytes)
  | removeFile (path : String)
  | removeTree (path : String)
  | rename (source target : String)
  /-- Writes a text to a standard stream, to the end. -/
  | print (s : Stream) (text : String)
  /-- Tells the user how the process ends, on the standard error. -/
  | tell (text : String)
  /-- A token that was not handed out before. -/
  | token
  | registry (op : Registry.Op)

/-- What the machine answers. -/
@[reducible] def Request.Answer : Request → Type
  | .run _ => Except OsFault Output
  | .fetch _ => Except FetchFault Reply
  | .canonical _ => Except OsFault String
  | .readFile _ => Except OsFault Bytes
  | .isThere _ | .isFile _ => Bool
  | .survey _ => Option Entry
  | .makeDirs _ => Except OsFault Unit
  | .tempFile .. | .tempDir .. => Except OsFault String
  | .writeFile .. | .removeFile _ | .removeTree _ | .rename .. => Except OsFault Unit
  | .print .. => Except OsFault Unit
  | .tell _ => Unit
  | .token => String
  | .registry op => op.Answer

/-- A program: it is done, or asks something and goes on with the answer. -/
inductive Program (α : Type) : Type
  | done (a : α)
  | ask (r : Request) (next : r.Answer → Program α)

namespace Program

variable {α β γ σ : Type}

/-- One program after another. -/
def bind : Program α → (α → Program β) → Program β
  | done a, f => f a
  | ask r next, f => ask r fun x => (next x).bind f

instance : Monad Program where
  pure := done
  bind := bind

@[simp] theorem done_bind (a : α) (f : α → Program β) : (done a).bind f = f a := rfl

@[simp] theorem ask_bind (r : Request) (next : r.Answer → Program α) (f : α → Program β) :
    (ask r next).bind f = ask r fun x => (next x).bind f := rfl

theorem bind_done (p : Program α) : p.bind done = p := by
  induction p with
  | done a => rfl
  | ask r next ih => simp [ih]

theorem bind_assoc (p : Program α) (f : α → Program β) (g : β → Program γ) :
    (p.bind f).bind g = p.bind fun a => (f a).bind g := by
  induction p with
  | done a => rfl
  | ask r next ih => simp [ih]

instance : LawfulMonad Program :=
  LawfulMonad.mk' Program bind_done (fun a f => done_bind a f) bind_assoc

/-- The run of a program on a machine with a state. -/
def run (answer : (r : Request) → σ → r.Answer × σ) : Program α → σ → α × σ
  | done a, s => (a, s)
  | ask r next, s => (next (answer r s).1).run answer (answer r s).2

/-- What a program asks in such a run. -/
def history (answer : (r : Request) → σ → r.Answer × σ) : Program α → σ → List Request
  | done _, _ => []
  | ask r next, s => r :: (next (answer r s).1).history answer (answer r s).2

variable {answer : (r : Request) → σ → r.Answer × σ}

@[simp] theorem run_done (a : α) (s : σ) : (done a).run answer s = (a, s) := rfl

@[simp] theorem run_ask (r : Request) (next : r.Answer → Program α) (s : σ) :
    (ask r next).run answer s = (next (answer r s).1).run answer (answer r s).2 := rfl

theorem run_bind (p : Program α) (f : α → Program β) (s : σ) :
    (p.bind f).run answer s = (f (p.run answer s).1).run answer (p.run answer s).2 := by
  induction p generalizing s with
  | done a => rfl
  | ask r next ih => simp [ih]

theorem history_bind (p : Program α) (f : α → Program β) (s : σ) :
    (p.bind f).history answer s =
      p.history answer s ++ (f (p.run answer s).1).history answer (p.run answer s).2 := by
  induction p generalizing s with
  | done a => rfl
  | ask r next ih => simp [history, ih]

/-- The program that asks one thing. -/
def send (r : Request) : Program r.Answer := ask r done

/-- Runs a command to its end. -/
def command (program : String) (args : List String) (dir : Option String) :
    Program (Except OsFault Output) :=
  send (.run ⟨program, args, dir⟩)

/-- Writes a text to a standard stream, unless it is empty. -/
def print (s : Stream) (text : String) : Program (Except OsFault Unit) :=
  if text = "" then done (.ok ()) else send (.print s text)

end Program

/-- A program that may end with a fault. -/
abbrev Action := ExceptT Fault Program

namespace Action

variable {α : Type}

/-- Asks one thing. -/
def ask (r : Request) : Action r.Answer := ExceptT.lift (.send r)

/-- Asks for something that the system may refuse. -/
def trial (p : Program (Except OsFault α)) (fault : OsFault → Fault) : Action α :=
  ExceptT.mk (p.bind fun x => .done (x.mapError fault))

/-- Ends with a fault or goes on with a value. -/
def ofExcept (x : Except Fault α) : Action α := ExceptT.mk (.done x)

/-- Does something at the end, whether there was a fault or not. -/
def always (p : Action α) (last : Program Unit) : Action α :=
  ExceptT.mk (p.run.bind fun x => last.bind fun _ => .done x)

end Action
end LintGate
