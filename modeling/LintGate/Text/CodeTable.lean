import LintGate.Text.Digit
import LintGate.Text.Lines

/-!
# Tables of code points

The tables of the Unicode standard are kept as texts.  A table is a list of words in
ascending order, and a word tells the values of a *run* of code points:

* `41-5A=61` — the first code point has the value 61, and the values of the others move
  along with them;
* `100-12E~101` — the same, but only every second code point has a value;
* `1D100-1D102:73+73` — all of them have the same values;
* `73+73` — the code point after the last run has these values.

All numbers are written in radix 16.

## Main definitions

* `CodeTable`, `CodeTable.ofText`, `CodeTable.values?` — such a table, and looking a code
  point up in it.
* `CodeTable.ofSpans`, `CodeTable.has` — a set of code points, and its members.
-/

namespace LintGate

/-- How the values of a run's code points depend on those of the first. -/
inductive Spread
  | same
  | moving
  | alternate
  deriving DecidableEq, Repr

/-- A run of code points, both ends included, with the values of the first. -/
structure CodeRun where
  first : Nat
  last : Nat
  values : List Nat := []
  spread : Spread := .same
  deriving DecidableEq, Repr

/-- A table: runs in ascending order. -/
abbrev CodeTable := Array CodeRun

namespace CodeTable

/-! ### Reading -/

/-- A number in radix 16. -/
def numberOf (cs : List Char) : Nat :=
  cs.foldl (fun n c => 16 * n + (Text.digit? 16 c).getD 0) 0

/-- The words of a text. -/
def words (cs : List Char) : List (List Char) :=
  (Text.splitOn ' ' (cs.map fun c => if c = '\n' then ' ' else c)).filter (· ≠ [])

/-- The ends of a span, which are the same if only one is written. -/
def span (cs : List Char) : Nat × Nat :=
  let first := numberOf (cs.takeWhile (· ≠ '-'))
  (first, if cs.contains '-' then numberOf ((cs.dropWhile (· ≠ '-')).drop 1) else first)

/-- How the values of a run are written. -/
def spread? : Char → Option Spread
  | ':' => some .same
  | '=' => some .moving
  | '~' => some .alternate
  | _ => none

/-- The values of a word. -/
def valuesOf (cs : List Char) : List Nat :=
  ((Text.splitOn '+' cs).filter (· ≠ [])).map numberOf

/-- The run that a word tells, `next` being the code point after the run before it. -/
def run (next : Nat) (word : List Char) : CodeRun :=
  let isEnd (c : Char) : Bool := (spread? c).isSome
  match word.dropWhile (!isEnd ·) with
  | [] => ⟨next, next, valuesOf word, .same⟩
  | mark :: rest =>
    let (first, last) := span (word.takeWhile (!isEnd ·))
    ⟨first, last, valuesOf rest, (spread? mark).getD .same⟩

/-- The table that a text spells. -/
def ofText (text : String) : CodeTable :=
  (words text.toList).foldl (fun t w => t.push (run ((t.back?.map (·.last + 1)).getD 0) w)) #[]

/-- The set whose spans a text lists. -/
def ofSpans (text : String) : CodeTable :=
  ((words text.toList).map fun w => ⟨(span w).1, (span w).2, [], .same⟩).toArray

/-! ### Looking up -/

/-- The run of a code point, sought among those from one place to another. -/
def runBetween? (t : CodeTable) (n low high : Nat) : Option CodeRun :=
  if low < high then
    let middle := (low + high) / 2
    match t[middle]? with
    | none => none
    | some r =>
      if n < r.first then runBetween? t n low middle
      else if r.last < n then runBetween? t n (middle + 1) high
      else some r
  else none
termination_by high - low

/-- The values of a code point. -/
def values? (t : CodeTable) (n : Nat) : Option (List Nat) :=
  (runBetween? t n 0 t.size).bind fun r =>
    let moved := r.values.map (· + (n - r.first))
    match r.spread with
    | .same => some r.values
    | .moving => some moved
    | .alternate => if (n - r.first) % 2 = 0 then some moved else none

/-- Whether a code point has an entry. -/
def has (t : CodeTable) (n : Nat) : Bool := (t.values? n).isSome

end CodeTable
end LintGate
