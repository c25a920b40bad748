/-!
# Reading bytes as UTF-8

Output of a command is a list of bytes that need not be text.  `scan` reads it as a
sequence of characters and of *faults*: a fault is a maximal run of bytes that starts
a well-formed sequence and breaks off, or a single byte that starts none.  A strict
reader refuses a text with a fault, a lenient one writes U+FFFD for it.

## Main definitions

* `Bytes` — a list of bytes.
* `encode` — the UTF-8 form of a list of characters.
* `Utf8.Expect`, `Utf8.scan` — the reading, one byte at a time.
* `decode?`, `decodeLossy` — the strict and the lenient reader.
-/

namespace LintGate

/-- A list of bytes, as a file holds it or a command prints it. -/
abbrev Bytes := List UInt8

namespace Text
namespace Utf8

/-- What the reader waits for: a first byte, or `more + 1` further bytes of a
sequence whose bits so far are `bits`, the next of them between `low` and `high`. -/
inductive Expect
  | first
  | next (more : Nat) (bits : Nat) (low high : UInt8)

/-- The character that stands for a fault. -/
def replacement : Char := Char.ofNat 0xFFFD

/-- Reads a first byte: a finished character, a fault, or the start of a sequence.
The bounds on the second byte rule out overlong forms, surrogates and code points
above U+10FFFF. -/
def start (b : UInt8) : List (Option Char) × Expect :=
  let n := b.toNat
  if n < 0x80 then ([some (Char.ofNat n)], .first)
  else if 0xC2 ≤ n && n ≤ 0xDF then ([], .next 0 (n - 0xC0) 0x80 0xBF)
  else if n == 0xE0 then ([], .next 1 0 0xA0 0xBF)
  else if n == 0xED then ([], .next 1 0xD 0x80 0x9F)
  else if 0xE1 ≤ n && n ≤ 0xEF then ([], .next 1 (n - 0xE0) 0x80 0xBF)
  else if n == 0xF0 then ([], .next 2 0 0x90 0xBF)
  else if 0xF1 ≤ n && n ≤ 0xF3 then ([], .next 2 (n - 0xF0) 0x80 0xBF)
  else if n == 0xF4 then ([], .next 2 4 0x80 0x8F)
  else ([none], .first)

/-- Reads one byte.  A byte that cannot continue the sequence ends it as a fault and
is read again as a first byte. -/
def step : Expect → UInt8 → List (Option Char) × Expect
  | .first, b => start b
  | .next more bits low high, b =>
    if low ≤ b && b ≤ high then
      let bits := bits * 64 + (b.toNat - 0x80)
      match more with
      | 0 => ([some (Char.ofNat bits)], .first)
      | more + 1 => ([], .next more bits 0x80 0xBF)
    else
      let (cs, e) := start b
      (none :: cs, e)

/-- The characters of a list of bytes, with `none` for each fault. -/
def scan : Expect → Bytes → List (Option Char)
  | .first, [] => []
  | .next .., [] => [none]
  | e, b :: bs => (step e b).1 ++ scan (step e b).2 bs

end Utf8

/-- The UTF-8 form of one character. -/
def encodeChar (c : Char) : Bytes :=
  let n := c.toNat
  if n < 0x80 then [n.toUInt8]
  else if n < 0x800 then [(0xC0 + n / 0x40).toUInt8, (0x80 + n % 0x40).toUInt8]
  else if n < 0x10000 then
    [(0xE0 + n / 0x1000).toUInt8, (0x80 + n / 0x40 % 0x40).toUInt8, (0x80 + n % 0x40).toUInt8]
  else
    [(0xF0 + n / 0x40000).toUInt8, (0x80 + n / 0x1000 % 0x40).toUInt8,
      (0x80 + n / 0x40 % 0x40).toUInt8, (0x80 + n % 0x40).toUInt8]

/-- The UTF-8 form of a list of characters. -/
def encode (cs : List Char) : Bytes := cs.flatMap encodeChar

/-- The strict reader: the characters, unless there is a fault. -/
def decode? (bs : Bytes) : Option (List Char) := (Utf8.scan .first bs).mapM id

/-- The lenient reader: every fault is read as U+FFFD. -/
def decodeLossy (bs : Bytes) : List Char :=
  (Utf8.scan .first bs).map (·.getD Utf8.replacement)

@[simp] theorem encode_nil : encode [] = [] := rfl

@[simp] theorem encode_cons (c : Char) (cs : List Char) :
    encode (c :: cs) = encodeChar c ++ encode cs := rfl

@[simp] theorem decodeLossy_nil : decodeLossy [] = [] := rfl

end Text
end LintGate
