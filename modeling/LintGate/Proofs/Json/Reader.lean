import LintGate.Json

/-!
# Reading JSON

A reader takes a text one character at a time.  It keeps the arrays and objects that are
open, each with what it holds so far, and what is due next; a character that is not due ends
the reading.  It knows the values that a report is made of: its numbers are the natural ones,
and an escape names one character.  What it accepts is JSON.

## Main definitions

* `Frame`, `Spelling`, `Due`, `Reader` — where a reader stands.
* `Reader.step`, `Reader.finish`, `Reader.run` — what it does with a character, at the end of
  the text, and with a text.
* `Json.ofText?` — the value that a text stands for.
-/

namespace LintGate
namespace Json

/-- An array or an object that is open, what it holds kept last first. -/
inductive Frame
  | array (items : List Json)
  /-- An object, and the key that the next value belongs to. -/
  | object (fields : List (String × Json)) (key : String)

/-- How the next character of a quoted text is spelled. -/
inductive Spelling
  | plain
  /-- A backslash was read. -/
  | escape
  /-- By a code, of which `more + 1` digits are missing. -/
  | code (more value : Nat)

/-- What is due next. -/
inductive Due
  | value
  /-- The first item of an array, or its end. -/
  | item
  /-- The first key of an object, or its end. -/
  | field
  /-- A key behind a comma. -/
  | key
  | colon
  /-- The rest of a quoted text, which is a key or a value. -/
  | text (isKey : Bool) (read : List Char) (s : Spelling)
  /-- The rest of a number, or what may stand behind it. -/
  | number (n : Nat)
  /-- The rest of a word that stands for a value. -/
  | word (rest : List Char) (v : Json)
  /-- A comma, or the end of the innermost frame. -/
  | separator
  /-- Nothing, as the value is complete. -/
  | nothing (v : Json)

/-- The open frames, the innermost one first, and what is due. -/
structure Reader where
  stack : List Frame := []
  due : Due := .value

namespace Reader

/-- The blanks that may stand between the parts of a value. -/
def isSpace (c : Char) : Bool := c = ' ' || c = '\t' || c = '\n' || c = '\r'

/-- Hands a complete value to the innermost frame. -/
def complete (v : Json) : List Frame → Reader
  | [] => ⟨[], .nothing v⟩
  | .array items :: fs => ⟨.array (v :: items) :: fs, .separator⟩
  | .object fields key :: fs => ⟨.object ((key, v) :: fields) key :: fs, .separator⟩

/-- Ends the innermost frame, which has to be an array. -/
def closeArray : List Frame → Option Reader
  | .array items :: fs => some (complete (.array items.reverse) fs)
  | _ => none

/-- Ends the innermost frame, which has to be an object. -/
def closeObject : List Frame → Option Reader
  | .object fields _ :: fs => some (complete (.object fields.reverse) fs)
  | _ => none

/-- Reads the first character of a value. -/
def startValue (fs : List Frame) (c : Char) : Option Reader :=
  if c = '"' then some ⟨fs, .text false [] .plain⟩
  else if c = '[' then some ⟨.array [] :: fs, .item⟩
  else if c = '\x7b' then some ⟨.object [] "" :: fs, .field⟩
  else if c = 't' then some ⟨fs, .word "rue".toList (.bool true)⟩
  else if c = 'f' then some ⟨fs, .word "alse".toList (.bool false)⟩
  else if c = 'n' then some ⟨fs, .word "ull".toList .null⟩
  else (Text.digit? 10 c).map fun d => ⟨fs, .number d⟩

/-- Reads the first character of a key. -/
def startKey (fs : List Frame) (c : Char) : Option Reader :=
  if c = '"' then some ⟨fs, .text true [] .plain⟩ else none

/-- Reads a character behind a value. -/
def separate (fs : List Frame) (c : Char) : Option Reader :=
  if c = ']' then closeArray fs
  else if c = '\x7d' then closeObject fs
  else if c = ',' then
    match fs with
    | .array _ :: _ => some ⟨fs, .value⟩
    | .object .. :: _ => some ⟨fs, .key⟩
    | [] => none
  else none

/-- Ends a quoted text. -/
def endText (isKey : Bool) (s : String) : List Frame → Option Reader
  | .object fields key :: fs =>
    if isKey then some ⟨.object fields s :: fs, .colon⟩
    else some (complete (.text s) (.object fields key :: fs))
  | fs => if isKey then none else some (complete (.text s) fs)

/-- The character of an escape with one letter. -/
def shortEscape? : Char → Option Char
  | '"' => some '"'
  | '\\' => some '\\'
  | '/' => some '/'
  | 'b' => some '\x08'
  | 'f' => some '\x0c'
  | 'n' => some '\n'
  | 'r' => some '\r'
  | 't' => some '\t'
  | _ => none

/-- The character with a code of four digits; surrogates have none. -/
def charOf? (n : Nat) : Option Char :=
  if n < 0xD800 ∨ 0xDFFF < n then some (Char.ofNat n) else none

/-- Reads a character of a quoted text.  Control characters have to be escaped. -/
def stepText (fs : List Frame) (isKey : Bool) (read : List Char) : Spelling → Char → Option Reader
  | .plain, c =>
    if c = '"' then endText isKey (String.ofList read.reverse) fs
    else if c = '\\' then some ⟨fs, .text isKey read .escape⟩
    else if c.toNat < 0x20 then none
    else some ⟨fs, .text isKey (c :: read) .plain⟩
  | .escape, c =>
    if c = 'u' then some ⟨fs, .text isKey read (.code 3 0)⟩
    else (shortEscape? c).map fun e => ⟨fs, .text isKey (e :: read) .plain⟩
  | .code more value, c =>
    (Text.digit? 16 c).bind fun d =>
      match more with
      | more + 1 => some ⟨fs, .text isKey read (.code more (value * 16 + d))⟩
      | 0 => (charOf? (value * 16 + d)).map fun e => ⟨fs, .text isKey (e :: read) .plain⟩

/-- Reads a character that cannot be a digit of a number. -/
def stepBetween (r : Reader) (c : Char) : Option Reader :=
  if isSpace c then some r
  else
    match r.due with
    | .value => startValue r.stack c
    | .item => if c = ']' then closeArray r.stack else startValue r.stack c
    | .field => if c = '\x7d' then closeObject r.stack else startKey r.stack c
    | .key => startKey r.stack c
    | .colon => if c = ':' then some ⟨r.stack, .value⟩ else none
    | .separator => separate r.stack c
    | _ => none

/-- Reads one character; `none` if it is not due. -/
def step (r : Reader) (c : Char) : Option Reader :=
  match r.due with
  | .text isKey read s => stepText r.stack isKey read s c
  | .number n =>
    match Text.digit? 10 c with
    -- A number of several digits does not start with zero.
    | some d => if n = 0 then none else some ⟨r.stack, .number (n * 10 + d)⟩
    | none => (complete (.number n) r.stack).stepBetween c
  | .word [] _ => none
  | .word (d :: rest) v =>
    if c ≠ d then none
    else if rest = [] then some (complete v r.stack)
    else some ⟨r.stack, .word rest v⟩
  | _ => r.stepBetween c

/-- The value at the end of the text, if it is complete. -/
def finish (r : Reader) : Option Json :=
  match r.stack, r.due with
  | [], .number n => some (.number n)
  | [], .nothing v => some v
  | _, _ => none

/-- The value that a text completes. -/
def run (r : Reader) : List Char → Option Json
  | [] => r.finish
  | c :: cs => (r.step c).bind fun r => r.run cs

end Reader

/-- The value that a text stands for, if it is the text of one value. -/
def ofText? (cs : List Char) : Option Json := Reader.run {} cs

end Json
end LintGate
