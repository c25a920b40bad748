import LintGate.Text.Digit

/-!
# JSON documents

## Main definitions

* `Json` — the values that a report is made of.
* `Json.quote` — a text in quotes.
* `Json.pretty` — a value over several lines, two blanks a level.
* `Json.document` — the same with a line feed behind it.
-/

namespace LintGate

/-- A JSON value.  The fields of an object stand in the order they are written. -/
inductive Json
  | null
  | bool (b : Bool)
  | number (n : Nat)
  | text (s : String)
  | array (items : List Json)
  | object (fields : List (String × Json))

namespace Json

/-- One character of a quoted text: quotes, backslashes and control characters are
escaped, everything else stands for itself. -/
def escape (c : Char) : List Char :=
  if c = '"' then ['\\', '"']
  else if c = '\\' then ['\\', '\\']
  else if c.toNat = 0x08 then ['\\', 'b']
  else if c.toNat = 0x0C then ['\\', 'f']
  else if c = '\n' then ['\\', 'n']
  else if c = '\r' then ['\\', 'r']
  else if c = '\t' then ['\\', 't']
  else if c.toNat < 0x20 then
    ['\\', 'u', '0', '0', Text.hexDigit (c.toNat / 16), Text.hexDigit (c.toNat % 16)]
  else [c]

/-- A text in quotes. -/
def quote (cs : List Char) : List Char := '"' :: (cs.flatMap escape ++ ['"'])

/-- A new line, indented to a level. -/
def newline (level : Nat) : List Char := '\n' :: List.replicate (2 * level) ' '

mutual

/-- A value that starts on a line of a level. -/
def pretty (level : Nat) : Json → List Char
  | .null => "null".toList
  | .bool b => (if b then "true" else "false").toList
  | .number n => (toString n).toList
  | .text s => quote s.toList
  | .array [] => ['[', ']']
  | .array (v :: vs) =>
    '[' :: (newline (level + 1) ++ pretty (level + 1) v ++ prettyItems (level + 1) vs ++
      newline level ++ [']'])
  | .object [] => ['\x7b', '\x7d']
  | .object ((k, v) :: fs) =>
    '\x7b' :: (newline (level + 1) ++ quote k.toList ++ ':' :: ' ' :: pretty (level + 1) v ++
      prettyFields (level + 1) fs ++ newline level ++ ['\x7d'])

/-- The further items of an array. -/
def prettyItems (level : Nat) : List Json → List Char
  | [] => []
  | v :: vs => ',' :: (newline level ++ pretty level v ++ prettyItems level vs)

/-- The further fields of an object. -/
def prettyFields (level : Nat) : List (String × Json) → List Char
  | [] => []
  | (k, v) :: fs =>
    ',' :: (newline level ++ quote k.toList ++ ':' :: ' ' :: pretty level v ++
      prettyFields level fs)

end

/-- A value over several lines, with a line feed behind it. -/
def document (v : Json) : String := String.ofList (pretty 0 v ++ ['\n'])

/-- A text, or nothing. -/
def ofOption : Option String → Json
  | none => .null
  | some s => .text s

end Json
end LintGate
