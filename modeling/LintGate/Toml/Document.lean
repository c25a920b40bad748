import LintGate.Toml.Token
import LintGate.Toml.Value

/-!
# Reading a TOML document

The tokens of a document are read by a push-down automaton: open arrays and inline
tables stand on a stack, and a finished value goes to the innermost of them, or to the
table that the last header opened.

## Main definitions

* `Frame`, `Phase`, `Reader` — where the automaton stands.
* `Reader.step`, `Reader.finish` — reading a token, and the end.
* `document?` — the entries of a document, unless it is malformed.
-/

namespace LintGate
namespace Toml

/-- An open array with its items, last first, or an open inline table with its entries
and the key whose value is due. -/
inductive Frame
  | array (items : List Value)
  | inline (entries : Entries) (key : KeyPath)

/-- What a key belongs to. -/
inductive KeyPlace
  | line
  | inline
  | header (double : Bool)
  deriving DecidableEq, Repr

/-- What is due next.  Key parts are kept last first. -/
inductive Phase
  /-- A line. -/
  | line
  /-- A header's second bracket or its key. -/
  | header
  /-- A part of a key, and what follows it. -/
  | keyPart (place : KeyPlace) (read : KeyPath)
  | keyEnd (place : KeyPlace) (read : KeyPath)
  /-- The equals sign of an inline entry whose line has ended. -/
  | equals (read : KeyPath)
  /-- The second closing bracket of a header. -/
  | headerEnd (read : KeyPath)
  /-- The value of an assignment. -/
  | value
  /-- An item of an array, or its end. -/
  | item
  /-- A key of an inline table, or its end. -/
  | entry
  /-- The rest of an unquoted value; the characters read are kept last first. -/
  | scalar (read : List Char)
  /-- A time after a date and one blank, or what follows the date alone. -/
  | gap (read : List Char)
  /-- What follows a value, or a header. -/
  | done
  deriving DecidableEq, Repr

/-- Where the automaton stands: the entries so far, the table that the last header
opened and its form, the open frames, and what is due. -/
structure Reader where
  root : Entries := []
  table : KeyPath := []
  stack : List Frame := []
  /-- The key that the line assigns to. -/
  key : KeyPath := []
  phase : Phase := .line

/-- How deep arrays and inline tables may stand in each other. -/
def maxDepth : Nat := 80

/-- How many parts a key may have. -/
def maxParts : Nat := 80

namespace Reader

/-- Whether a character may stand in a bare key. -/
def isBare (c : Char) : Bool := c.isAlphanum || c = '_' || c = '-'

/-- The part of a key that a token is. -/
def keyPart? : Token → Option (List Char)
  | .atom cs => if cs.all isBare then some cs else none
  | .text true cs => some cs
  | _ => none

/-- Opens a frame, unless too many are open. -/
def push (r : Reader) (f : Frame) (due : Phase) : Option Reader :=
  if r.stack.length < maxDepth then some { r with stack := f :: r.stack, phase := due } else none

/-- Hands a finished value to the innermost frame or to the line's key. -/
def complete (r : Reader) (v : Value) : Option Reader :=
  match r.stack with
  | .array items :: fs => some { r with stack := .array (v :: items) :: fs, phase := .done }
  | .inline es key :: fs =>
    (Entries.assign .header key v es).map fun es =>
      { r with stack := .inline es [] :: fs, phase := .done }
  | [] =>
    (Entries.within (Entries.assign .header r.key v) r.table r.root).map fun root =>
      { r with root, key := [], phase := .done }

/-- Closes an array. -/
def closeArray (r : Reader) : Option Reader :=
  match r.stack with
  | .array items :: fs => { r with stack := fs }.complete (.array items.reverse)
  | _ => none

/-- Closes an inline table. -/
def closeInline (r : Reader) : Option Reader :=
  match r.stack with
  | .inline es _ :: fs => { r with stack := fs }.complete (.table .inline es)
  | _ => none

/-- Reads the token a value starts with. -/
def startValue (r : Reader) : Token → Option Reader
  | .text _ cs => r.complete (.text cs)
  | .atom cs => some { r with phase := .scalar cs.reverse }
  | .dot => some { r with phase := .scalar ['.'] }
  | .openBracket => r.push (.array []) .item
  | .openBrace => r.push (.inline [] []) .entry
  | _ => none

/-- Reads the token behind a value or a header. -/
def afterValue (r : Reader) : Token → Option Reader
  | .blank _ => some r
  | .newline => some (if r.stack.isEmpty then { r with phase := .line } else r)
  | .comma =>
    match r.stack with
    | .array _ :: _ => some { r with phase := .item }
    | .inline .. :: _ => some { r with phase := .entry }
    | [] => none
  | .closeBracket => r.closeArray
  | .closeBrace => r.closeInline
  | _ => none

/-- Ends an unquoted value. -/
def endScalar (r : Reader) (read : List Char) : Option Reader :=
  (Scalar.ofText? read.reverse).bind fun s => r.complete (.scalar s)

/-- Whether a text is a whole date, so that a time may follow it. -/
def isDate (cs : List Char) : Bool := Moment.looksDated cs && Moment.afterDate? cs == some []

/-- Opens the table that a header names. -/
def openHeader (r : Reader) (double : Bool) (read : KeyPath) : Option Reader :=
  match read with
  | [] => none
  | key :: path =>
    let change := if double then Entries.openElement key else Entries.openTable key
    (Entries.enter false change .header path.reverse r.root).map fun root =>
      { r with root, table := (key :: path).reverse, phase := .done }

/-- Starts the value of a finished key. -/
def endKey (r : Reader) (place : KeyPlace) (read : KeyPath) : Option Reader :=
  match place, r.stack with
  | .line, _ => some { r with key := read.reverse, phase := .value }
  | .inline, .inline es _ :: fs =>
    some { r with stack := .inline es read.reverse :: fs, phase := .value }
  | _, _ => none

/-- Reads one token; `none` if it is out of place. -/
def step (r : Reader) (t : Token) : Option Reader :=
  match r.phase, t with
  | .line, .newline | .line, .blank _ => some r
  | .line, .openBracket => some { r with phase := .header }
  | .line, t => (keyPart? t).map fun k => { r with phase := .keyEnd .line [k] }
  -- The second bracket has to follow the first one at once.
  | .header, .openBracket => some { r with phase := .keyPart (.header true) [] }
  | .header, .blank _ => some { r with phase := .keyPart (.header false) [] }
  | .header, t => (keyPart? t).map fun k => { r with phase := .keyEnd (.header false) [k] }
  | .keyPart .., .blank _ => some r
  | .keyPart place read, t =>
    (keyPart? t).map fun k => { r with phase := .keyEnd place (k :: read) }
  | .keyEnd .., .blank _ => some r
  | .keyEnd place read, .dot =>
    if read.length < maxParts then some { r with phase := .keyPart place read } else none
  | .keyEnd (.header false) read, .closeBracket => r.openHeader false read
  | .keyEnd (.header true) read, .closeBracket => some { r with phase := .headerEnd read }
  | .keyEnd place read, .equals => r.endKey place read
  | .keyEnd .inline read, .newline => some { r with phase := .equals read }
  | .keyEnd .., _ => none
  | .equals _, .newline | .equals _, .blank _ => some r
  | .equals read, .equals => r.endKey .inline read
  | .equals _, _ => none
  | .headerEnd read, .closeBracket => r.openHeader true read
  | .headerEnd _, _ => none
  | .value, .blank _ => some r
  -- Inside an inline table the value may stand on a line of its own.
  | .value, .newline => if r.stack.isEmpty then none else some r
  | .value, t => r.startValue t
  | .item, .newline | .item, .blank _ => some r
  | .item, .closeBracket => r.closeArray
  | .item, t => r.startValue t
  | .entry, .newline | .entry, .blank _ => some r
  | .entry, .closeBrace => r.closeInline
  | .entry, t => (keyPart? t).map fun k => { r with phase := .keyEnd .inline [k] }
  | .scalar read, .atom cs => some { r with phase := .scalar (cs.reverse ++ read) }
  | .scalar read, .dot => some { r with phase := .scalar ('.' :: read) }
  | .scalar read, .blank cs =>
    -- One blank may stand between a date and a time.
    if cs = [' '] ∧ isDate read.reverse then some { r with phase := .gap read } else r.endScalar read
  | .scalar read, t => (r.endScalar read).bind (·.afterValue t)
  | .gap read, .atom cs => some { r with phase := .scalar (cs.reverse ++ ' ' :: read) }
  | .gap read, t => (r.endScalar read).bind (·.afterValue t)
  | .done, t => r.afterValue t

/-- The entries at the end of the document; `none` if it cuts something off. -/
def finish (r : Reader) : Option Entries :=
  let ended :=
    match r.phase with
    | .scalar read | .gap read => r.endScalar read
    | .line | .done => some r
    | _ => none
  ended.bind fun r => if r.stack.isEmpty then some r.root else none

end Reader

/-- The entries of a document. -/
def document? (cs : List Char) : Option Entries :=
  (tokens? cs).bind fun ts => (ts.foldlM Reader.step {}).bind Reader.finish

end Toml
end LintGate
