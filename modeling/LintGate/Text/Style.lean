/-!
# Coloured text

## Main definitions

* `Style` — a colour or weight of a terminal.
* `paint` — a text in a style, or as it is where colours are off.
-/

namespace LintGate
namespace Text

/-- How a text stands out on a terminal. -/
inductive Style
  | redBold
  | yellowBold
  | green
  | yellow
  | red
  | dimmed
  deriving DecidableEq, Repr

/-- The code that switches a style on. -/
def Style.code : Style → String
  | .redBold => "\x1b[1;31m"
  | .yellowBold => "\x1b[1;33m"
  | .green => "\x1b[32m"
  | .yellow => "\x1b[33m"
  | .red => "\x1b[31m"
  | .dimmed => "\x1b[2m"

/-- The code that switches every style off. -/
def resetCode : String := "\x1b[0m"

/-- A text in which the style is switched on again after each code that switches it
off. -/
def restyle (code : List Char) : List Char → List Char
  | '\x1b' :: '[' :: '0' :: 'm' :: cs =>
    '\x1b' :: '[' :: '0' :: 'm' :: (code ++ restyle code cs)
  | c :: cs => c :: restyle code cs
  | [] => []

/-- A text in a style, if colours are on. -/
def paint (colored : Bool) (style : Style) (s : String) : String :=
  if colored then
    style.code ++ String.ofList (restyle style.code.toList s.toList) ++ resetCode
  else s

@[simp] theorem paint_false (style : Style) (s : String) : paint false style s = s := rfl

end Text
end LintGate
