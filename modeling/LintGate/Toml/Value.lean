import LintGate.Toml.Scalar

/-!
# Values and tables of TOML

A table remembers how it came to be, since this decides which later lines may add to
it.

## Main definitions

* `Value`, `Entries` — values and the entries of a table.
* `Entries.enter` — going down a path of keys, with tables made on the way.
* `Entries.openTable`, `Entries.openElement`, `Entries.assign` — what the three kinds of
  lines do.
-/

namespace LintGate
namespace Toml

/-- How a table came to be. -/
inductive TableForm
  /-- Written between braces; nothing can be added. -/
  | inline
  /-- Named by a header. -/
  | header
  /-- Named in front of the last key of a header. -/
  | implied
  /-- Named in front of the last key of an assignment. -/
  | dotted
  deriving DecidableEq, Repr

/-- A value.  The entries of a table stand in the order they were made. -/
inductive Value
  | text (s : List Char)
  | scalar (s : Scalar)
  | array (items : List Value)
  | table (form : TableForm) (entries : List (List Char × Value))
  /-- The tables made by headers in double brackets, the last one first. -/
  | elements (tables : List (List (List Char × Value)))

/-- The entries of a table. -/
abbrev Entries := List (List Char × Value)

/-- A key of several parts. -/
abbrev KeyPath := List (List Char)

namespace Entries

/-- The value of a key. -/
def get? (key : List Char) : Entries → Option Value
  | [] => none
  | (k, v) :: es => if k = key then some v else get? key es

/-- Maps a key to a value, in the place of the value it had. -/
def set (key : List Char) (v : Value) : Entries → Entries
  | [] => [(key, v)]
  | (k, w) :: es => if k = key then (k, v) :: es else (k, w) :: set key v es

/-- Adds an entry with a new key. -/
def add? (key : List Char) (v : Value) (es : Entries) : Option Entries :=
  match get? key es with
  | some _ => none
  | none => some (set key v es)

/-- Changes the table that a path of keys leads to; `change` is given the table's form,
with `form` for a table that the path makes, and its entries.

Assignments go down only through tables that no header named; no path goes down into a
value or an inline table.  A path enters the last element of an array of tables. -/
def enter (assigning : Bool) (change : TableForm → Entries → Option Entries)
    (form : TableForm) : KeyPath → Entries → Option Entries
  | [], es => change form es
  | key :: path, es =>
    match get? key es with
    | none =>
      let made := if assigning then TableForm.dotted else .implied
      (enter assigning change made path []).map fun inner => set key (.table made inner) es
    | some (.table .inline _) => none
    | some (.table f inner) =>
      if assigning && f == .header then none
      else (enter assigning change f path inner).map fun inner => set key (.table f inner) es
    | some (.elements (last :: front)) =>
      (enter assigning change .header path last).map fun last =>
        set key (.elements (last :: front)) es
    | some _ => none

/-- What a header in single brackets does at its last key: it names a new table, or
one that other headers implied. -/
def openTable (key : List Char) (_ : TableForm) (es : Entries) : Option Entries :=
  match get? key es with
  | none => some (set key (.table .header []) es)
  | some (.table .implied inner) => some (set key (.table .header inner) es)
  | some _ => none

/-- What a header in double brackets does at its last key: it starts a new element of
an array of tables. -/
def openElement (key : List Char) (_ : TableForm) (es : Entries) : Option Entries :=
  match get? key es with
  | none => some (set key (.elements [[]]) es)
  | some (.elements tables) => some (set key (.elements ([] :: tables)) es)
  | some _ => none

/-- What an assignment does at its last key: the key is new, and the table was made by
assignments alone if the key has several parts. -/
def assignLast (single : Bool) (key : List Char) (v : Value) (form : TableForm) (es : Entries) :
    Option Entries :=
  if single = (form == .dotted) then none else add? key v es

/-- What an assignment does to the table it stands in, `form` being the form of this
table. -/
def assign (form : TableForm) (path : KeyPath) (v : Value) (es : Entries) : Option Entries :=
  match path.getLast? with
  | none => none
  | some key => enter true (assignLast (path.length == 1) key v) form path.dropLast es

/-- Changes the table that a header opened.  The header made sure that its path leads
there. -/
def within (change : Entries → Option Entries) : KeyPath → Entries → Option Entries
  | [], es => change es
  | key :: path, es =>
    match get? key es with
    | some (.table f inner) =>
      (within change path inner).map fun inner => set key (.table f inner) es
    | some (.elements (last :: front)) =>
      (within change path last).map fun last => set key (.elements (last :: front)) es
    | _ => none

end Entries
end Toml
end LintGate
