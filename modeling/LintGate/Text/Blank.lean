/-!
# Blank characters and trimming

Texts are trimmed of every character with the Unicode property White_Space, which
is more than the four blanks that `Char.isWhitespace` knows: the no-break space and
the line separators count, the zero-width space does not.

## Main definitions

* `isBlank` — the White_Space property.
* `stripStart`, `stripEnd`, `strip` — a list of characters without its outer blanks.
* `isAllBlank` — a text in which nothing but blanks is found.
* `trim`, `trimEnd` — the same on strings.
-/

namespace LintGate
namespace Text

/-- The characters with the Unicode property White_Space. -/
def isBlank (c : Char) : Bool :=
  let n := c.toNat
  (0x09 ≤ n && n ≤ 0x0D) || n == 0x20 || n == 0x85 || n == 0xA0 || n == 0x1680 ||
    (0x2000 ≤ n && n ≤ 0x200A) || n == 0x2028 || n == 0x2029 || n == 0x202F || n == 0x205F ||
    n == 0x3000

/-! ### Trimming -/

/-- The characters from the first that is not blank on. -/
def stripStart (cs : List Char) : List Char := cs.dropWhile isBlank

/-- The characters up to the last that is not blank. -/
def stripEnd (cs : List Char) : List Char := (cs.reverse.dropWhile isBlank).reverse

/-- The characters between the outer blanks. -/
def strip (cs : List Char) : List Char := stripEnd (stripStart cs)

/-- Whether only blanks are found. -/
def isAllBlank (cs : List Char) : Bool := cs.all isBlank

@[simp] theorem stripStart_nil : stripStart [] = [] := rfl

@[simp] theorem stripEnd_nil : stripEnd [] = [] := rfl

@[simp] theorem strip_nil : strip [] = [] := rfl

@[simp] theorem isAllBlank_nil : isAllBlank [] = true := rfl

@[simp] theorem isAllBlank_cons (c : Char) (cs : List Char) :
    isAllBlank (c :: cs) = (isBlank c && isAllBlank cs) := rfl

/-- A string without its outer blanks. -/
def trim (s : String) : String := String.ofList (strip s.toList)

/-- A string without its last blanks. -/
def trimEnd (s : String) : String := String.ofList (stripEnd s.toList)

end Text
end LintGate
