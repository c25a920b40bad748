import LintGate.Path
import LintGate.Program.Basic
import LintGate.Text.Utf8

/-!
# A file system

## Main definitions

* `Node` — a file, a link or a directory.
* `Location` — the names that lead from the root to a node.
* `Node.get?`, `Node.put`, `Node.erase` — looking at a node and changing it.
* `FileSystem.resolve` — the location that a path leads to.
* `FileSystem.makeDirs`, `FileSystem.write`, `FileSystem.removeTree`, … — the operations
  of the system, with the faults it gives.
-/

namespace LintGate

/-- What stands at a place of a file system. -/
inductive Node
  | file (content : Bytes) (executable : Bool)
  | link (target : List Char)
  | dir (entries : List (List Char × Node))

/-- The names that lead from the root to a node. -/
abbrev Location := List (List Char)

namespace Node

/-- A directory without entries. -/
def empty : Node := dir []

/-- Whether a node is a directory. -/
def isDir : Node → Bool
  | dir _ => true
  | _ => false

/-- The entry of a name in a list. -/
def find? (name : List Char) : List (List Char × Node) → Option Node
  | [] => none
  | (n, x) :: es => if n = name then some x else find? name es

/-- The list with an entry set. -/
def set (name : List Char) (x : Node) : List (List Char × Node) → List (List Char × Node)
  | [] => [(name, x)]
  | (n, y) :: es => if n = name then (n, x) :: es else (n, y) :: set name x es

/-- The list without the entry of a name. -/
def unset (name : List Char) : List (List Char × Node) → List (List Char × Node)
  | [] => []
  | (n, y) :: es => if n = name then unset name es else (n, y) :: unset name es

/-- The entries of a directory. -/
def entries : Node → List (List Char × Node)
  | dir es => es
  | _ => []

/-- The node at a location. -/
def get? : Node → Location → Option Node
  | x, [] => some x
  | dir es, name :: l => (find? name es).bind (get? · l)
  | _, _ :: _ => none

/-- The tree with a node at a location; directories are made on the way. -/
def put : Node → Location → Node → Node
  | _, [], x => x
  | y, name :: l, x => dir (set name (put ((find? name y.entries).getD empty) l x) y.entries)

/-- The tree without the node at a location. -/
def erase : Node → Location → Node
  | _, [] => empty
  | dir es, [name] => dir (unset name es)
  | dir es, name :: l =>
    match find? name es with
    | some x => dir (set name (erase x l) es)
    | none => dir es
  | x, _ => x

@[simp] theorem get?_nil (x : Node) : x.get? [] = some x := by simp [get?]

@[simp] theorem put_nil (x y : Node) : y.put [] x = x := rfl

theorem find?_set (name : List Char) (x : Node) (es : List (List Char × Node)) :
    find? name (set name x es) = some x := by
  induction es with
  | nil => simp [set, find?]
  | cons e es ih =>
    obtain ⟨n, y⟩ := e
    by_cases h : n = name <;> simp [set, find?, h, ih]

/-- What was put at a location is found there. -/
theorem get?_put (x : Node) (l : Location) (y : Node) : (y.put l x).get? l = some x := by
  induction l generalizing y with
  | nil => simp
  | cons name l ih => simp [put, get?, find?_set, ih]

mutual

/-- The tree as it is walked: links are neither files nor directories. -/
def toEntry (name : List Char) : Node → Entry
  | file _ _ => .file name
  | link _ => .other name
  | dir es => .directory name (toEntries es)

/-- The entries of a directory as they are walked. -/
def toEntries : List (List Char × Node) → List Entry
  | [] => []
  | (name, x) :: es => x.toEntry name :: toEntries es

end

end Node

/-- A file system with the current directory. -/
structure FileSystem where
  root : Node
  current : Location

namespace FileSystem

/-! ### Resolving paths -/

/-- The pieces between the slashes of a path. -/
def names (p : List Char) : Location := (Text.splitOn '/' p).filter (· ≠ [])

/-- Whether a path ends in a slash. -/
def endsInSlash (p : List Char) : Bool := p.getLast? == some '/'

/-- The pieces of a path that are gone through in turn.  A slash at the end asks for a
directory, like a dot. -/
def steps (p : List Char) : Location :=
  if endsInSlash p then names p ++ [['.']] else names p

/-- How many links a path may go through. -/
def maxLinks : Nat := 40

/-- The path of a location. -/
def pathOf (l : Location) : String := String.ofList ('/' :: Text.joinWith ['/'] l)

/-- Whether a path is too long to be handed to the system in one piece. -/
def isTooLong (path : String) : Bool := decide (4096 ≤ path.utf8ByteSize)

/-- Whether a name is too long, or the path that it leads to. -/
def nameTooLong (here : Location) (name : List Char) : Bool :=
  decide (255 < (Text.encode name).length) || isTooLong (pathOf (here ++ [name]))

/-- Where one step leads. -/
inductive Turn
  /-- A file or a directory. -/
  | place (l : Location)
  /-- A link, with what it holds. -/
  | link (l : Location) (target : List Char)
  deriving DecidableEq, Repr

/-- Where one step from a location leads. -/
def turn (root : Node) (here : Location) (step : List Char) : Except OsFault Turn :=
  match root.get? here with
  | some (.dir es) =>
    if step = ['.'] then .ok (.place here)
    else if step = ['.', '.'] then .ok (.place here.dropLast)
    else if nameTooLong here step then .error .tooLong
    else
      match Node.find? step es with
      | none => .error .missing
      | some (.link target) => .ok (.link (here ++ [step]) target)
      | some _ => .ok (.place (here ++ [step]))
  | _ => .error .notDirectory

/-- The location that a path starts from. -/
def origin (here : Location) (p : List Char) : Location :=
  if Path.isAbsolute p then [] else here

/-- The location that steps lead to from a location.  A link at the end is followed if
`follow` says so; `enter` goes on where a link leads. -/
def goWith (root : Node) (follow : Bool)
    (enter : Location → Location → Except OsFault Location) (here : Location) :
    Location → Except OsFault Location
  | [] => .ok here
  | step :: rest =>
    match turn root here step with
    | .error e => .error e
    | .ok (.place l) => goWith root follow enter l rest
    | .ok (.link l target) =>
      if rest = [] ∧ !follow then .ok l
      -- The steps of the link come first, from the root if it starts there.
      else enter (origin here target) (steps target ++ rest)

/-- The location that steps lead to from a location, through so many links at most. -/
def go (root : Node) (follow : Bool) : Nat → Location → Location → Except OsFault Location
  | 0 => goWith root follow fun _ _ => .error .tooManyLinks
  | links + 1 => goWith root follow (go root follow links)

/-- The location that a path of any length leads to. -/
def walk (fs : FileSystem) (follow : Bool) (path : String) : Except OsFault Location :=
  let p := path.toList
  if p.contains (Char.ofNat 0) then .error .nulInPath
  else if p = [] then .error .missing
  else go fs.root follow maxLinks (origin fs.current p) (steps p)

/-- The location that a path leads to. -/
def resolve (fs : FileSystem) (follow : Bool) (path : String) : Except OsFault Location :=
  if isTooLong path ∧ !path.toList.contains (Char.ofNat 0) then .error .tooLong
  else fs.walk follow path

/-- The node that a path leads to. -/
def node (fs : FileSystem) (path : String) : Except OsFault Node :=
  match fs.resolve true path with
  | .error e => .error e
  | .ok l =>
    match fs.root.get? l with
    | some x => .ok x
    | none => .error .missing

/-! ### Looking -/

/-- The absolute path of a file without links in it.  The names of the path are looked up
one after the other, so only the answer has to be short enough. -/
def canonical (fs : FileSystem) (path : String) : Except OsFault String :=
  (fs.walk true path).map pathOf

/-- The content of a file. -/
def read (fs : FileSystem) (path : String) : Except OsFault Bytes :=
  match fs.node path with
  | .error e => .error e
  | .ok (.file content _) => .ok content
  | .ok _ => .error .isDirectory

/-- Whether a path leads to anything. -/
def isThere (fs : FileSystem) (path : String) : Bool := (fs.node path).isOk

/-- Whether a path leads to a plain file. -/
def isFile (fs : FileSystem) (path : String) : Bool :=
  match fs.node path with
  | .ok (.file ..) => true
  | _ => false

/-- The tree below a directory.  A link in its place counts only if it leads to a
directory. -/
def survey (fs : FileSystem) (path : String) : Option Entry :=
  let name := (Path.fileName? path.toList).getD []
  match (fs.resolve false path).toOption.bind fs.root.get? with
  | none => none
  | some (.link _) =>
    match fs.node path with
    | .ok (.dir es) => some (Node.toEntry name (.dir es))
    | _ => some (.other name)
  | some x => some (x.toEntry name)

/-! ### Changing -/

/-- The location that the last name of a path stands for, whatever is there: the directory
above has to be there. -/
def place (fs : FileSystem) (path : String) : Except OsFault Location :=
  let p := path.toList
  if p.contains (Char.ofNat 0) then .error .nulInPath
  else if p = [] then .error .missing
  else if isTooLong path then .error .tooLong
  else
    match go fs.root true maxLinks (origin fs.current p) ((names p).dropLast ++ [['.']]) with
    | .error e => .error e
    | .ok above =>
      let name := (names p).getLastD ['.']
      if name = ['.'] ∨ name = ['.', '.'] then
        .error (.other "Device or resource busy (os error 16)")
      else if nameTooLong above name then .error .tooLong
      else .ok (above ++ [name])

/-- Makes the directories of a list of steps, from a location on. -/
def makeFrom (root : Node) (links : Nat) (here : Location) : Location → Except OsFault Node
  | [] => .ok root
  | step :: rest =>
    match go root true links here [step] with
    | .ok l =>
      match root.get? l with
      | some (.dir _) => makeFrom root links l rest
      | _ => .error (if rest = [] then .exists else .notDirectory)
    | .error .missing =>
      -- A link that leads nowhere is in the way.
      if (root.get? (here ++ [step])).isSome then .error .exists
      else makeFrom (root.put (here ++ [step]) .empty) links (here ++ [step]) rest
    | .error e => .error e

/-- Makes a directory and those above it. -/
def makeDirs (fs : FileSystem) (path : String) : Except OsFault FileSystem :=
  let p := path.toList
  if p.contains (Char.ofNat 0) then .error .nulInPath
  else if isTooLong path then .error .tooLong
  else
    (makeFrom fs.root maxLinks (origin fs.current p) (steps p)).map
      fun root => { fs with root }

/-- Writes a file, in the place of the one it was. -/
def write (fs : FileSystem) (path : String) (content : Bytes) (executable : Bool) :
    Except OsFault FileSystem :=
  let store (l : Location) : FileSystem :=
    { fs with root := fs.root.put l (.file content executable) }
  match fs.resolve true path with
  | .ok l =>
    match fs.root.get? l with
    | some (.dir _) => .error .isDirectory
    | _ => .ok (store l)
  | .error .missing =>
    if endsInSlash path.toList then .error .isDirectory else (fs.place path).map store
  | .error e => .error e

/-- Removes a file or a link. -/
def removeFile (fs : FileSystem) (path : String) : Except OsFault FileSystem :=
  match fs.resolve false path with
  | .error e => .error e
  | .ok l =>
    match fs.root.get? l with
    | some (.dir _) => .error .isDirectory
    | _ => .ok { fs with root := fs.root.erase l }

/-- Removes a directory with everything below it; of a link, only the link. -/
def removeTree (fs : FileSystem) (path : String) : Except OsFault FileSystem :=
  match fs.resolve false path with
  | .error e => .error e
  | .ok l =>
    match fs.root.get? l with
    | some (.file ..) => .error .notDirectory
    | _ => .ok { fs with root := fs.root.erase l }

/-- Whether a node may take the place of another. -/
def mayReplace : Node → Option Node → Except OsFault Unit
  | _, none => .ok ()
  | .dir _, some (.dir []) => .ok ()
  | .dir _, some (.dir _) => .error .notEmpty
  | .dir _, some _ => .error .notDirectory
  | _, some (.dir _) => .error .isDirectory
  | _, some _ => .ok ()

/-- Moves a node to another place.  Only a directory has a slash at its end. -/
def rename (fs : FileSystem) (source target : String) : Except OsFault FileSystem :=
  match fs.place source, fs.place target with
  | .error e, _ => .error e
  | _, .error e => .error e
  | .ok l, .ok m =>
    match fs.root.get? l with
    | none => .error .missing
    | some x =>
      if !x.isDir ∧ (endsInSlash source.toList ∨ endsInSlash target.toList) then
        .error .notDirectory
      else if l = m then .ok fs
      -- A directory cannot be moved into itself, nor to where it comes from.
      else if l.isPrefixOf m then .error (.other "Invalid argument (os error 22)")
      else if m.isPrefixOf l then .error .notEmpty
      else
        match mayReplace x (fs.root.get? m) with
        | .error e => .error e
        | .ok _ => .ok { fs with root := (fs.root.erase l).put m x }

end FileSystem
end LintGate
