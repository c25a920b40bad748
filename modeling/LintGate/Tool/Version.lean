import LintGate.Text.Blank
import LintGate.Text.Lines

/-!
# The version that a tool reports

A tool's output tells its version in an *entry*: `version:` at the start of a line,
then blanks, then a word that only blanks follow up to the end of a line or of the
output.  Line feeds are blanks, so the word may stand on a later line.

## Main definitions

* `VersionEntry.word?` — the word of the entry that a text starts with.
* `VersionEntry.find?` — the word of the first entry in a text.
-/

namespace LintGate
namespace VersionEntry

open Text

/-- What an entry starts with. -/
def label : List Char := "version:".toList

/-- Whether the blanks that a text starts with reach the end of a line or of the
text. -/
def endsLine (cs : List Char) : Bool :=
  let blanks := cs.takeWhile isBlank
  blanks.contains '\n' || blanks.length == cs.length

/-- The word of the entry that a text starts with. -/
def word? (cs : List Char) : Option (List Char) :=
  (dropInit? label cs).bind fun rest =>
    let body := stripStart rest
    let word := body.takeWhile (!isBlank ·)
    if !word.isEmpty && endsLine (body.dropWhile (!isBlank ·)) then some word else none

/-- The word of the first entry at the start of a line; `atStart` tells whether the
text starts on a line of its own. -/
def findFrom? (atStart : Bool) : List Char → Option (List Char)
  | [] => none
  | c :: cs =>
    match if atStart then word? (c :: cs) else none with
    | some w => some w
    | none => findFrom? (c == '\n') cs

/-- The version that an output reports. -/
def find? (cs : List Char) : Option (List Char) := findFrom? true cs

end VersionEntry
end LintGate
