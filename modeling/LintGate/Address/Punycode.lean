import LintGate.Text.Digit

/-!
# Punycode

A label with characters outside ASCII is sent as one inside ASCII: its ASCII characters
come first, and behind a dash the others are listed in ascending order, each by the number
of steps from the one before it.  A step is either a place further on in the label, or the
next code point and back to the first place.  A number of steps is written in radix 36,
lowest digit first, with digits that end it: these are the ones below a *threshold*, which
depends on the place of the digit and on a *bias* that follows the size of the numbers
before it.

## Main definitions

* `threshold`, `adapt` — the threshold of a place, and the bias after a number.
* `writeSteps`, `readSteps?` — a number of steps.
* `encode`, `decode?` — a whole label.
-/

namespace LintGate
namespace Address
namespace Punycode

/-! ### Digits and thresholds -/

/-- The digit of a value below 36: the small letters come before `0` to `9`. -/
def digit (d : Nat) : Char := if d < 26 then Char.ofNat (0x61 + d) else Char.ofNat (0x16 + d)

/-- The value of a digit. -/
def value? (c : Char) : Option Nat :=
  if 'a' ≤ c && c ≤ 'z' then some (c.toNat - 0x61)
  else if 'A' ≤ c && c ≤ 'Z' then some (c.toNat - 0x41)
  else if '0' ≤ c && c ≤ '9' then some (c.toNat - 0x16)
  else none

/-- The threshold of the digit at a place, places being counted in steps of 36. -/
def threshold (place bias : Nat) : Nat := max 1 (min 26 (place - bias))

theorem threshold_pos (place bias : Nat) : 0 < threshold place bias := by
  unfold threshold
  omega

/-- Divides a number until it is at most 455, and counts the divisions in steps of 36. -/
def shrink (n count : Nat) : Nat × Nat :=
  if 455 < n then shrink (n / 35) (count + 36) else (n, count)
termination_by n

/-- The bias after a number of steps, which placed the character that makes the label
`length` characters long. -/
def adapt (steps length : Nat) (isFirst : Bool) : Nat :=
  let n := if isFirst then steps / 700 else steps / 2
  let (n, count) := shrink (n + n / length) 0
  count + 36 * n / (n + 38)

/-! ### Numbers of steps -/

/-- A number of steps from a place on. -/
def writeSteps (bias place n : Nat) : List Char :=
  let t := threshold place bias
  if n < t then [digit n]
  else digit (t + (n - t) % (36 - t)) :: writeSteps bias (place + 36) ((n - t) / (36 - t))
termination_by n
decreasing_by
  have := threshold_pos place bias
  have := Nat.div_le_self (n - threshold place bias) (36 - threshold place bias)
  omega

/-- Reads a number of steps, of 32 bits, and adds it to `sum`; `weight` is that of the
next digit. -/
def readSteps? (bias place weight sum : Nat) : List Char → Option (Nat × List Char)
  | [] => none
  | c :: cs =>
    (value? c).bind fun d =>
      let t := threshold place bias
      if UInt32.size ≤ sum + d * weight then none
      else if d < t then some (sum + d * weight, cs)
      else if UInt32.size ≤ weight * (36 - t) then none
      else readSteps? bias (place + 36) (weight * (36 - t)) (sum + d * weight) cs

/-- Reading takes characters away. -/
theorem length_of_readSteps? {bias place weight sum n : Nat} {cs rest : List Char}
    (h : readSteps? bias place weight sum cs = some (n, rest)) : rest.length < cs.length := by
  induction cs generalizing place weight sum with
  | nil => simp [readSteps?] at h
  | cons c cs ih =>
    simp only [readSteps?, Option.bind_eq_some_iff] at h
    obtain ⟨d, -, h⟩ := h
    split at h
    · simp at h
    split at h
    · simp only [Option.some.injEq, Prod.mk.injEq] at h
      simp [← h.2]
    split at h
    · simp at h
    exact Nat.lt_succ_of_lt (ih h)

/-! ### Labels -/

/-- Whether a character lies outside ASCII. -/
def isWide (c : Char) : Bool := 0x80 ≤ c.toNat

/-- What is written so far, the steps since the last character written, the bias, and the
number of characters that are placed. -/
structure Writing where
  text : List Char
  steps : Nat := 0
  bias : Nat := 72
  placed : Nat

/-- Passes a character of the label while the code point `n` is placed. -/
def Writing.pass (n start : Nat) (w : Writing) (c : Char) : Writing :=
  if c.toNat < n then { w with steps := w.steps + 1 }
  else if c.toNat = n then
    { text := w.text ++ writeSteps w.bias 36 w.steps
      steps := 0
      bias := adapt w.steps (w.placed + 1) (w.placed == start)
      placed := w.placed + 1 }
  else w

/-- Places code points, which are given in ascending order; `next` is the first one that
has not been counted yet. -/
def Writing.placeAll (label : List Char) (start next : Nat) (w : Writing) :
    List Nat → Writing
  | [] => w
  | n :: ns =>
    let w := { w with steps := w.steps + (n - next) * (w.placed + 1) }
    let w := label.foldl (Writing.pass n start) w
    placeAll label start (n + 1) { w with steps := w.steps + 1 } ns

/-- Code points in ascending order, each of them once. -/
def ascending (ns : List Nat) : List Nat :=
  (ns.mergeSort (· ≤ ·)).foldr (fun n ms => if ms.head? = some n then ms else n :: ms) []

/-- The form of a label inside ASCII. -/
def encode (label : List Char) : List Char :=
  let narrow := label.filter (!isWide ·)
  let start := if narrow.isEmpty then [] else narrow ++ ['-']
  let w : Writing := { text := start, placed := narrow.length }
  (w.placeAll label narrow.length 0x80 (ascending ((label.filter isWide).map Char.toNat))).text

/-- Places the characters that are listed in a text, `here` being the place and `n` the code
point that the steps go on from. -/
def placeListed? (bias n here : Nat) (label : List Char) : List Char → Option (List Char)
  | [] => some label
  | c :: cs =>
    match h : readSteps? bias 36 1 here (c :: cs) with
    | none => none
    | some (sum, rest) =>
      have := length_of_readSteps? h
      let length := label.length + 1
      let n := n + sum / length
      if n < 0xD800 ∨ (0xDFFF < n ∧ n < 0x110000) then
        placeListed? (adapt (sum - here) length (here == 0)) n (sum % length + 1)
          (label.insertIdx (sum % length) (Char.ofNat n)) rest
      else none
termination_by cs => cs.length
decreasing_by exact this

/-- The label that a form inside ASCII stands for. -/
def decode? (cs : List Char) : Option (List Char) :=
  let listed := (cs.reverse.takeWhile (· ≠ '-')).reverse
  let narrow := cs.take (cs.length - listed.length - 1)
  -- A dash that nothing stands in front of is no dash between the two parts.
  placeListed? 72 0x80 0 narrow (if narrow.isEmpty then cs else listed)

end Punycode
end Address
end LintGate
