import LintGate.Address.Name
import LintGate.Address.Percent

/-!
# Hosts

A host is a name or a number.  A number of 32 bits is written in up to four parts, each of
them decimal, octal or hexadecimal, where the last part fills the places that are left; a
number of 128 bits is written in brackets, as eight pieces with colons between them, where
two colons stand for a run of zeros.  Both kinds of numbers are shown in one way only.

## Main definitions

* `Host`, `Host.toText` — hosts, and how they are shown.
* `fourOf?`, `sixOf?` — the number that a text spells.
* `Host.ofText?`, `Host.ofOpaque?` — the host that a text names on the web, and elsewhere.
-/

namespace LintGate
namespace Address

/-- A host. -/
inductive Host
  | name (cs : List Char)
  /-- A number of 32 bits. -/
  | four (n : Nat)
  /-- A number of 128 bits, in pieces of 16. -/
  | six (pieces : List Nat)
  deriving DecidableEq, Repr

/-! ### Numbers of 32 bits -/

/-- The number that digits spell; one of more than 32 bits counts as the first such. -/
def bounded? (radix : Nat) (cs : List Char) : Option Nat :=
  cs.foldlM (fun n c => (Text.digit? radix c).map fun d => min (n * radix + d) UInt32.size) 0

/-- The number that a part spells.  A mark without digits behind it is zero. -/
def partOf? : List Char → Option Nat
  | [] => none
  | '0' :: 'x' :: cs | '0' :: 'X' :: cs => bounded? 16 cs
  | '0' :: c :: cs => bounded? 8 (c :: cs)
  | cs => bounded? 10 cs

/-- The parts of a name, without the empty one behind a dot at its end. -/
def partsOfName (name : List Char) : List (List Char) :=
  let ps := Text.splitOn '.' name
  if ps.getLast? = some [] then ps.dropLast else ps

/-- Whether a name ends like a number, so that it has to be one. -/
def endsInNumber (name : List Char) : Bool :=
  match (partsOfName name).getLast? with
  | none => false
  | some p => (!p.isEmpty && p.all Char.isDigit) || (partOf? p).isSome

/-- The number whose parts are given: each but the last is a byte, and the last fills the
bytes that are left. -/
def fourOfParts? : (bytesLeft : Nat) → List Nat → Option Nat
  | _, [] => none
  | 0, _ :: _ => none
  | bytes, [n] => if n < 256 ^ bytes then some n else none
  | bytes + 1, n :: ns =>
    if n < 256 then (fourOfParts? bytes ns).map (n * 256 ^ bytes + ·) else none

/-- The number of 32 bits that a name spells. -/
def fourOf? (name : List Char) : Option Nat :=
  ((partsOfName name).mapM partOf?).bind (fourOfParts? 4)

/-! ### Numbers of 128 bits -/

/-- A piece: one to four digits. -/
def pieceOf? (cs : List Char) : Option Nat :=
  if cs = [] ∨ 4 < cs.length then none else bounded? 16 cs

/-- A byte, in decimal digits with no zero in front. -/
def byteOf? (cs : List Char) : Option Nat :=
  if cs = [] ∨ 3 < cs.length ∨ (1 < cs.length ∧ cs.head? = some '0') then none
  else (bounded? 10 cs).bind fun n => if n < 256 then some n else none

/-- Two pieces, written as four bytes. -/
def twoPiecesOf? (cs : List Char) : Option (List Nat) :=
  match (Text.splitOn '.' cs).mapM byteOf? with
  | some [a, b, c, d] => some [256 * a + b, 256 * c + d]
  | _ => none

/-- The pieces between colons; the last ones may be written as bytes if `bytesMayEnd` says
so. -/
def piecesOf? (bytesMayEnd : Bool) (cs : List Char) : Option (List Nat) :=
  if cs = [] then some []
  else
    let ps := Text.splitOn ':' cs
    let last := ps.getLastD []
    (ps.dropLast.mapM pieceOf?).bind fun front =>
      if bytesMayEnd ∧ last.contains '.' then (twoPiecesOf? last).map (front ++ ·)
      else (pieceOf? last).map fun n => front ++ [n]

/-- The texts in front of the first two colons and behind them. -/
def atColons? : List Char → Option (List Char × List Char)
  | ':' :: ':' :: cs => some ([], cs)
  | c :: cs => (atColons? cs).map fun (front, back) => (c :: front, back)
  | [] => none

/-- The pieces of a number of 128 bits. -/
def sixOf? (cs : List Char) : Option (List Nat) :=
  match atColons? cs with
  | none =>
    if cs = [] then none
    else (piecesOf? true cs).bind fun ps => if ps.length = 8 then some ps else none
  | some (front, back) =>
    (piecesOf? false front).bind fun ps => (piecesOf? true back).bind fun qs =>
      -- The colons stand for at least one zero.
      let zeros := 8 - ps.length - qs.length
      if 0 < zeros then some (ps ++ List.replicate zeros 0 ++ qs) else none

/-! ### How hosts are shown -/

/-- The bytes of a number with dots between them. -/
def fourText (n : Nat) : List Char :=
  Text.joinWith ['.']
    ([n / 0x1000000, n / 0x10000 % 0x100, n / 0x100 % 0x100, n % 0x100].map (Nat.toDigits 10))

/-- The zeros in front of a list. -/
def zerosOf (ps : List Nat) : Nat := (ps.takeWhile (· = 0)).length

/-- The length of the longest run of zeros. -/
def longestZeros : List Nat → Nat
  | [] => 0
  | p :: ps => max (zerosOf (p :: ps)) (longestZeros ps)

/-- The pieces with colons between them; the first run of `run` zeros is left out. -/
def sixText (run : Nat) : List Nat → List Nat → List Char
  | front, [] => pieces front.reverse
  | front, p :: ps =>
    if 1 < run ∧ zerosOf (p :: ps) = run then
      pieces front.reverse ++ "::".toList ++ pieces ((p :: ps).drop run)
    else sixText run (p :: front) ps
where
  /-- Pieces with colons between them. -/
  pieces (ps : List Nat) : List Char := Text.joinWith [':'] (ps.map (Nat.toDigits 16))

/-- A host as it is shown. -/
def Host.toText : Host → List Char
  | name cs => cs
  | four n => fourText n
  | six ps => '[' :: sixText (longestZeros ps) [] ps ++ [']']

/-! ### Reading hosts -/

/-- The text between brackets, if there is an opening one. -/
def bracketed? : List Char → Option (Option (List Char))
  | '[' :: cs => some (if cs.getLast? = some ']' then some cs.dropLast else none)
  | _ => none

/-- The host that a text names on the web. -/
def Host.ofText? (cs : List Char) : Option Host :=
  match bracketed? cs with
  | some inner => (inner.bind sixOf?).map six
  | none =>
    (nameOf? (unescape cs)).bind fun n =>
      if endsInNumber n then (fourOf? n).map four else some (name n)

/-- The host that a text names elsewhere; it may be empty. -/
def Host.ofOpaque? (cs : List Char) : Option Host :=
  match bracketed? cs with
  | some inner => (inner.bind sixOf?).map six
  | none =>
    let refused := (Char.ofNat 0) :: "\t\n\r #/:<>?@[\\]^|".toList
    if cs.any refused.contains then none else some (name (escape .plain cs))

end Address
end LintGate
