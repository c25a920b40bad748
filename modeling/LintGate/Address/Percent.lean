import LintGate.Text.Digit
import LintGate.Text.Utf8

/-!
# Percent escapes

A character that cannot stand in a part of an address is written by its bytes, each of
them as two digits behind a percent sign.

## Main definitions

* `Part`, `Part.escapes` — the parts of an address, and what has to be escaped in them.
* `escape`, `unescape` — writing and reading escapes.
-/

namespace LintGate
namespace Address

/-- The parts of an address that differ in what has to be escaped. -/
inductive Part
  /-- A path that is no list of names, or a host that is no name of the web. -/
  | plain
  | fragment
  | path
  /-- A query, of an address of the web or of another one. -/
  | query (isSpecial : Bool)
  /-- A user or a password. -/
  | user
  deriving DecidableEq, Repr

/-- Whether a character has to be escaped in a part.  Control characters and characters
outside ASCII always have to be. -/
def Part.escapes (p : Part) (c : Char) : Bool :=
  let marks : List Char :=
    match p with
    | plain => []
    | fragment => " \"<>`".toList
    | path => " \"<>`#?\x7b\x7d".toList
    | query isSpecial => " \"#<>".toList ++ if isSpecial then ['\''] else []
    | user => " \"<>`#?\x7b\x7d/:;=@[\\]^|".toList
  c.toNat < 0x20 || 0x7F ≤ c.toNat || marks.contains c

/-- A byte as two digits behind a percent sign. -/
def escapeByte (b : UInt8) : List Char :=
  ['%', (Text.hexDigit (b.toNat / 16)).toUpper, (Text.hexDigit (b.toNat % 16)).toUpper]

/-- A text with the characters escaped that a part cannot hold. -/
def escape (p : Part) (cs : List Char) : List Char :=
  cs.flatMap fun c => if p.escapes c then (Text.encodeChar c).flatMap escapeByte else [c]

/-- The bytes that a text stands for.  A percent sign without two digits stands for
itself. -/
def unescape : List Char → Bytes
  | [] => []
  | '%' :: a :: b :: cs =>
    match Text.digit? 16 a, Text.digit? 16 b with
    | some x, some y => (16 * x + y).toUInt8 :: unescape cs
    | _, _ => 0x25 :: unescape (a :: b :: cs)
  | c :: cs => Text.encodeChar c ++ unescape cs

end Address
end LintGate
