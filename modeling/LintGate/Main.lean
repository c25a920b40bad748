import LintGate.Address.Page
import LintGate.Text.Digit
import LintGate.Verify

/-!
# The program

The gate as a process.  It handles files itself and leaves commands and downloads to a
*runner*: the environment names a spool directory, into which each job is put under a
number and in which the runner leaves what came of it.

| file     | content                                                                  |
|----------|--------------------------------------------------------------------------|
| `n.job`  | `run`, the directory and the command, or `fetch` and an address          |
| `n.out`  | what the command printed, or what the server sent                        |
| `n.err`  | what the command printed on its second stream                            |
| `n.done` | the exit code or the server's status; any other text tells why it failed |

A job is a list of words, with U+0000 behind each of them.

## Main definitions

* `Host` — what the process keeps while it runs.
* `Host.answer` — the answers to the requests of programs.
* `main` — the process.
-/

namespace LintGate

/-- What the process keeps while it runs. -/
structure Host where
  spool : Option String
  count : IO.Ref Nat
  registry : IO.Ref Registry

namespace Host

/-! ### Files -/

/-- The fault that an error of the system stands for. -/
def faultOf : IO.Error → OsFault
  | .noFileOrDirectory .. => .missing
  | .alreadyExists .. => .exists
  | .permissionDenied .. => .denied
  | .unsatisfiedConstraints .. => .notEmpty
  | .inappropriateType _ code _ =>
    if code.toInt32.toInt.natAbs = 20 then .notDirectory else .isDirectory
  | e => .other e.toString

/-- Does something that the system may refuse. -/
def trial {α : Type} (act : IO α) : IO (Except OsFault α) := do
  match ← act.toBaseIO with
  | .ok a => return .ok a
  | .error e => return .error (faultOf e)

/-- Whether something succeeds. -/
def succeeds (act : IO Bool) : IO Bool := do
  match ← act.toBaseIO with
  | .ok b => return b
  | .error _ => return false

/-- The tree of a directory entry; links are not followed. -/
partial def treeOf (e : IO.FS.DirEntry) : IO Entry := do
  let name := e.fileName.toList
  match (← e.path.symlinkMetadata).type with
  | .file => return .file name
  | .dir =>
    match ← e.path.readDir.toBaseIO with
    | .ok es => return .directory name (← es.toList.mapM treeOf)
    | .error _ => return .directory name []
  | _ => return .other name

/-- The tree below a root. -/
def survey (root : String) : IO (Option Entry) := do
  let name := (Path.fileName? root.toList).getD []
  let children : IO (Array IO.FS.DirEntry) := do (← IO.FS.realPath root).readDir
  match ← children.toBaseIO with
  | .ok es => return some (.directory name (← es.toList.mapM treeOf))
  | .error _ =>
    if ← succeeds do return (← (← IO.FS.realPath root).metadata).type == .file then
      return some (.file name)
    else return none

/-- A name that was not used before: random digits. -/
def freshName (bytes : USize) : IO String := do
  let digits (b : UInt8) : List Char :=
    [Text.hexDigit (b.toNat / 16), Text.hexDigit (b.toNat % 16)]
  return String.ofList ((← IO.getRandomBytes bytes).toList.flatMap digits)

/-! ### Jobs of the runner -/

/-- Waits for a file and gives its text without outer blanks. -/
partial def await (path : String) : IO String := do
  match ← (IO.FS.readFile path).toBaseIO with
  | .ok text => return Text.trim text
  | .error _ =>
    IO.sleep 10
    await path

/-- Puts a job into the spool and waits for what comes of it: the runner's word, and
what was printed. -/
def runJob (spool : String) (h : Host) (words : List String) : IO (String × Bytes × Bytes) := do
  let n ← h.count.modifyGet fun n => (n, n + 1)
  let file (ext : String) : String := Path.join spool (toString n ++ ext)
  IO.FS.writeFile (file ".part") (String.join (words.map fun w => w.push (Char.ofNat 0)))
  IO.FS.rename (file ".part") (file ".job")
  let word ← await (file ".done")
  let printed (ext : String) : IO Bytes := do
    match ← (IO.FS.readBinFile (file ext)).toBaseIO with
    | .ok content => return content.toList
    | .error _ => return []
  return (word, ← printed ".out", ← printed ".err")

/-- What is said where there is no runner. -/
def noRunner : String := "no runner for commands is set up"

/-- Has a command run. -/
def run (h : Host) (c : Command) : IO (Except OsFault Output) := do
  if c.hasNul then return .error .nulInArgument
  match h.spool with
  | none => return .error (.other noRunner)
  | some spool =>
    let (word, out, err) ← runJob spool h ("run" :: c.dir.getD "" :: c.program :: c.args)
    match word.toNat? with
    | some n => return .ok ⟨out, err, .code n⟩
    | none =>
      if word = "killed" then return .ok ⟨out, err, .killed⟩
      else return .error (.other word)

/-- Has something downloaded. -/
def fetch (h : Host) (url : String) : IO (Except FetchFault Reply) := do
  match Address.page? url, h.spool with
  | .error e, _ => return .error e
  | .ok page, none => return .error (.unreachable (String.ofList page.toText))
  | .ok page, some spool =>
    let shown := String.ofList page.toText
    let (word, body, _) ← runJob spool h ["fetch", shown]
    match word.toNat? with
    | some status => return .ok ⟨status, body⟩
    | none => return .error (.unreachable shown)

/-! ### Requests -/

/-- Answers a request. -/
def answer (h : Host) : (r : Request) → IO r.Answer
  | .run c => h.run c
  | .fetch url => h.fetch url
  | .canonical path => trial do return (← IO.FS.realPath path).toString
  | .readFile path => trial do return (← IO.FS.readBinFile path).toList
  | .isThere path => succeeds do
    let _ ← (← IO.FS.realPath path).metadata
    return true
  | .isFile path => succeeds do return (← (← IO.FS.realPath path).metadata).type == .file
  | .survey root => survey root
  | .makeDirs path => trial (IO.FS.createDirAll path)
  | .tempFile dir start tail => trial do
    let path := Path.join dir (start ++ (← freshName 3) ++ tail)
    IO.FS.writeFile path ""
    return path
  | .tempDir dir start => trial do
    let path := Path.join dir (start ++ (← freshName 3))
    IO.FS.createDir path
    return path
  | .writeFile path content => trial (IO.FS.writeBinFile path ⟨content.toArray⟩)
  | .removeFile path => trial (IO.FS.removeFile path)
  | .removeTree path => trial (IO.FS.removeDirAll path)
  | .rename source target => trial (IO.FS.rename source target)
  | .print .out text => trial do (← IO.getStdout).putStr text
  | .print .err text => trial do (← IO.getStderr).putStr text
  | .tell text => do (← IO.getStderr).putStr text
  | .token => freshName 16
  | .registry op => h.registry.modifyGet fun r => r.apply op

/-- Runs a program on the host. -/
def play {α : Type} (h : Host) : Program α → IO α
  | .done a => return a
  | .ask r next => do h.play (next (← h.answer r))

/-- The user's directory for what can be made anew: the one that the environment names, if it is
named from the root, or else one in the user's home. -/
def cacheDir (named home : Option String) : Option String :=
  (named.filter fun path => Path.isAbsolute path.toList) <|> home.map (Path.join · ".cache")

/-- The surroundings of the process. -/
def surroundings : IO Surroundings := do
  let home ← IO.getEnv "HOME"
  return ⟨home, cacheDir (← IO.getEnv "XDG_CACHE_HOME") home, "linux", "x86_64"⟩

end Host
end LintGate

open LintGate in
/-- The process: its arguments are read, and what they ask for is done. -/
def main (args : List String) : IO UInt32 := do
  match Invocation.ofWords args with
  | .error f =>
    let stream ← if f.exitCode = 0 then IO.getStdout else IO.getStderr
    stream.putStr (f.message ++ "\n" ++ usageText)
    return UInt32.ofNat f.exitCode
  | .ok i =>
    let h : Host :=
      ⟨← IO.getEnv "SHELLCHECK_GATE_SPOOL", ← IO.mkRef 0, ← IO.mkRef {}⟩
    return UInt32.ofNat (← h.play (Gate.pipeline (← Host.surroundings) i))
