import LintGate.Address.Name.Fold
import LintGate.Address.Name.Direction
import LintGate.Address.Punycode
import LintGate.Text.Utf8

/-!
# Names of hosts

A name is a list of labels with dots between them.  It is folded and composed first, so
that names which are taken for the same become the same.  A label with characters outside
ASCII is sent in its coded form; a label that is written in coded form has to be the form
of a label that could be written plainly.

## Main definitions

* `Label`, `Label.ofFolded?` — a label as it is shown and as it is sent.
* `Label.fits` — whether its characters stand where they may.
* `nameOf?` — the name that bytes spell, as it is sent.
-/

namespace LintGate
namespace Address

open Punycode (isWide)

/-- A label as it is shown and as it is sent. -/
structure Label where
  shown : List Char
  sent : List Char
  deriving DecidableEq, Repr

namespace Label

/-- What a coded label starts with. -/
def codedMark : List Char := "xn--".toList

/-- How long a label may be for its coded form to be read, and to be written. -/
def maxCoded : Nat := 2000

def maxShown : Nat := 1000

/-- The label that a coded form stands for.  It has to hold a character outside ASCII, and
to be what folding and composing make of it. -/
def shownBy? (coded : List Char) : Option (List Char) :=
  if coded.any isWide ∨ maxCoded < coded.length then none
  else
    (Punycode.decode? coded).bind fun cs =>
      if cs.any isWide ∧ cs.all isSettled ∧ canonicalForm cs = cs then some cs else none

/-- The label that a part of a folded name is. -/
def ofFolded? (cs : List Char) : Option Label :=
  match Text.dropInit? codedMark cs with
  | some coded => (shownBy? coded).map fun shown => ⟨shown, cs⟩
  | none =>
    if !cs.any isWide then some ⟨cs, cs⟩
    else if maxShown < cs.length then none
    else some ⟨cs, codedMark ++ Punycode.encode cs⟩

/-- Whether the characters of a label stand where they may, `turned` telling that its name
has letters from right to left. -/
def fits (turned : Bool) (l : Label) : Bool :=
  !l.shown.head?.any isMark && joinersFit l.shown && (!turned || directionsFit l.shown)

end Label

/-- Whether a character cannot stand in a name. -/
def isForbidden (c : Char) : Bool :=
  c.toNat ≤ 0x20 || c.toNat = 0x7F || "%#/:<>?@[\\]^|".toList.contains c

/-- The name that bytes spell, as it is sent. -/
def nameOf? (bs : Bytes) : Option (List Char) := do
  let cs ← Text.decode? bs
  let folded ← cs.mapM foldChar?
  let labels ← (Text.splitOn '.' (canonicalForm folded.flatten)).mapM Label.ofFolded?
  let turned := labels.any fun l => turnsRight l.shown
  let name := Text.joinWith ['.'] (labels.map Label.sent)
  if labels.all (Label.fits turned) ∧ !name.any isForbidden ∧ name ≠ [] then some name else none

end Address
end LintGate
