import LintGate.Text.Digit

/-!
# Numbers, dates and truth values of TOML

Values that are not strings are written without quotes.

## Main definitions

* `Scalar` — what can be written so.
* `Scalar.ofText?` — the value that an unquoted text spells.
* `Moment.isValid` — whether a text is a date, a time or both.
-/

namespace LintGate
namespace Toml

open Text

/-- A value that is written without quotes. -/
inductive Scalar
  | boolean (b : Bool)
  | integer (n : Int)
  /-- A number with a fraction or an exponent: `mantissa` times ten to the `exponent`. -/
  | decimal (mantissa : Int) (exponent : Int)
  /-- An infinity or no number. -/
  | special
  /-- A date, a time or both. -/
  | moment
  /-- What is laid out like an integer and stands for none: its mark has no digits behind
  it, or there are letters in it.  It does no harm where nobody reads it. -/
  | misspelt
  deriving DecidableEq, Repr

namespace Scalar

/-! ### Digits -/

/-- The digits of a text whose underscores all stand between two digits. -/
def digits? (radix : Nat) : List Char → Option (List Nat)
  | [] => none
  | [c] => (digit? radix c).map ([·])
  | c :: '_' :: cs => (digit? radix c).bind fun d => (digits? radix cs).map (d :: ·)
  | c :: cs => (digit? radix c).bind fun d => (digits? radix cs).map (d :: ·)

/-- The number that digits stand for. -/
def valueOf (radix : Nat) (ds : List Nat) : Nat := ds.foldl (fun n d => n * radix + d) 0

/-- The digits of a decimal number, whose first digit is zero only if it is the only
one.  Behind a sign an underscore may come first, and then any digit. -/
def wholeDigits? (isSigned : Bool) : List Char → Option (List Nat)
  | '_' :: cs => if isSigned then digits? 10 cs else none
  | cs =>
    (digits? 10 cs).bind fun ds => if ds.length > 1 && ds.head? == some 0 then none else some ds

/-- A text and the sign in front of it. -/
def unsigned : List Char → Bool × List Char
  | '-' :: cs => (true, cs)
  | '+' :: cs => (false, cs)
  | cs => (false, cs)

/-- A number with its sign. -/
def signed (negative : Bool) (n : Nat) : Int := if negative then -(n : Int) else n

/-! ### Numbers -/

/-- Whether a character starts an exponent. -/
def isPowerMark (c : Char) : Bool := c = 'e' || c = 'E'

/-- Whether every underscore stands between two digits, where letters up to `f` count as
digits; `isAfter` tells that the first character may be one. -/
def underscoresFit (isAfter : Bool) : List Char → Bool
  | [] => true
  | '_' :: cs => isAfter && cs.head?.any (fun c => (digit? 16 c).isSome) && underscoresFit false cs
  | c :: cs => underscoresFit (digit? 16 c).isSome cs

/-- Whether a text behind its sign is laid out like an integer with underscores. -/
def isLoose (isSigned : Bool) (body : List Char) : Bool :=
  (body.dropWhile Char.isDigit).head? == some '_' && body.head? != some '0' &&
    !body.any (fun c => c = '.' || isPowerMark c) && underscoresFit isSigned body

/-- A decimal number, with a fraction and an exponent where they are written. -/
def number? (cs : List Char) : Option Scalar :=
  let (negative, body) := unsigned cs
  let isSigned := body.length < cs.length
  let (mantissa, power) := (body.takeWhile (!isPowerMark ·), body.dropWhile (!isPowerMark ·))
  let (whole, fraction) := (mantissa.takeWhile (· ≠ '.'), mantissa.dropWhile (· ≠ '.'))
  match wholeDigits? isSigned whole, fraction, power with
  | some ds, [], [] => some (.integer (signed negative (valueOf 10 ds)))
  | some ds, _, _ =>
    let fs := if fraction = [] then some [] else digits? 10 (fraction.drop 1)
    let (down, exponent) := unsigned (power.drop 1)
    let es := if power = [] then some [] else digits? 10 exponent
    fs.bind fun fs => es.map fun es =>
      .decimal (signed negative (valueOf 10 (ds ++ fs))) (signed down (valueOf 10 es) - fs.length)
  | none, _, _ => if isLoose isSigned body then some .misspelt else none

/-- The number behind the mark of a radix. -/
def marked? (radix : Nat) (cs : List Char) : Option Scalar :=
  if cs = [] then some .misspelt else (digits? radix cs).map fun ds => .integer (valueOf radix ds)

/-- A number in a radix of its own, after its mark. -/
def radix? : List Char → Option Scalar
  | '0' :: 'x' :: cs => marked? 16 cs
  | '0' :: 'o' :: cs => marked? 8 cs
  | '0' :: 'b' :: cs => marked? 2 cs
  | _ => none

end Scalar

/-! ### Dates and times -/

namespace Moment

/-- A number of two digits up to a bound, and the text behind it. -/
def twoDigits? (max : Nat) : List Char → Option (Nat × List Char)
  | a :: b :: cs =>
    (digit? 10 a).bind fun x => (digit? 10 b).bind fun y =>
      if 10 * x + y ≤ max then some (10 * x + y, cs) else none
  | _ => none

/-- The number of days of a month. -/
def daysOf (year month : Nat) : Nat :=
  if month = 2 then
    if year % 4 = 0 && (year % 100 ≠ 0 || year % 400 = 0) then 29 else 28
  else if month = 4 || month = 6 || month = 9 || month = 11 then 30
  else 31

/-- The text after a date of the calendar. -/
def afterDate? (cs : List Char) : Option (List Char) :=
  (twoDigits? 99 cs).bind fun (century, cs) => (twoDigits? 99 cs).bind fun (rest, cs) =>
    match cs with
    | '-' :: cs => (twoDigits? 12 cs).bind fun (month, cs) =>
      match cs with
      | '-' :: cs => (twoDigits? (daysOf (100 * century + rest) month) cs).bind fun (day, cs) =>
        if month = 0 || day = 0 then none else some cs
      | _ => none
    | _ => none

/-- The text after a fraction of a second, if there is one. -/
def afterFraction? : List Char → Option (List Char)
  | '.' :: cs =>
    let ds := cs.takeWhile Char.isDigit
    if ds.isEmpty then none else some (cs.drop ds.length)
  | cs => some cs

/-- The text after a time of day; the seconds may be left out, and there is a leap
second. -/
def afterTime? (cs : List Char) : Option (List Char) :=
  (twoDigits? 23 cs).bind fun (_, cs) =>
    match cs with
    | ':' :: cs => (twoDigits? 59 cs).bind fun (_, cs) =>
      match cs with
      | ':' :: cs => (twoDigits? 60 cs).bind fun (_, cs) => afterFraction? cs
      | cs => some cs
    | _ => none

/-- Whether a text is a distance from universal time, or empty. -/
def isOffset : List Char → Bool
  | [] | ['Z'] | ['z'] => true
  | s :: cs =>
    (s = '+' || s = '-') &&
      match twoDigits? 23 cs with
      | some (_, ':' :: cs) => (twoDigits? 59 cs).any (·.2.isEmpty)
      | _ => false

/-- Whether a text is a date, a time, or a date and a time with or without a distance
from universal time. -/
def isValid (cs : List Char) : Bool :=
  match afterDate? cs with
  | some [] => true
  | some (s :: cs) =>
    (s = 'T' || s = 't' || s = ' ') && (afterTime? cs).any isOffset
  | none => afterTime? cs == some []

end Moment

/-- Whether a text is written like a date, with four digits and a dash in front. -/
def Moment.looksDated : List Char → Bool
  | a :: b :: c :: d :: '-' :: _ => a.isDigit && b.isDigit && c.isDigit && d.isDigit
  | _ => false

/-- The value that an unquoted text spells. -/
def Scalar.ofText? (cs : List Char) : Option Scalar :=
  if cs = "true".toList then some (.boolean true)
  else if cs = "false".toList then some (.boolean false)
  else if (unsigned cs).2 = "inf".toList || (unsigned cs).2 = "nan".toList then some .special
  else if Moment.isValid cs then some .moment
  else (radix? cs).or (number? cs)

end Toml
end LintGate
