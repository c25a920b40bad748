import LintGate.Text.Digit

/-!
# Tokens of a TOML document

A document is cut into tokens by an automaton that reads one character at a time.
Strings are decoded on the way.  Comments leave no token: where one may stand, a line
feed or the end of the document follows it.

## Main definitions

* `Token` — the tokens.
* `Lexer`, `Lexer.step`, `Lexer.finish` — the automaton.
* `tokens?` — the tokens of a document, unless it holds a character out of place.
-/

namespace LintGate
namespace Toml

/-- A token.  An *atom* is a run of characters outside strings and punctuation: a bare
key, a number, a date or a truth value, or a part of one. -/
inductive Token
  | newline
  | blank (cs : List Char)
  | dot
  | equals
  | comma
  | openBracket
  | closeBracket
  | openBrace
  | closeBrace
  | atom (cs : List Char)
  /-- A string; `oneLine` tells that it can be a key. -/
  | text (oneLine : Bool) (cs : List Char)
  deriving DecidableEq, Repr

/-- How a string is delimited. -/
inductive Quoting
  /-- Double quotes; a backslash starts an escape. -/
  | basic
  /-- Single quotes; every character stands for itself. -/
  | literal
  deriving DecidableEq, Repr

/-- The quote of a string. -/
def Quoting.mark : Quoting → Char
  | .basic => '"'
  | .literal => '\''

/-- Where the automaton stands.  Characters read so far are kept last first. -/
inductive Lexer
  /-- Between tokens. -/
  | ready
  /-- In a run of blanks. -/
  | blank (read : List Char)
  | atom (read : List Char)
  | comment
  /-- After a carriage return that has to start a line end. -/
  | lineEnd
  /-- After one quote, and after two of them. -/
  | quote (q : Quoting)
  | quotes (q : Quoting)
  /-- In a string; `oneLine` tells it from one between three quotes. -/
  | inside (q : Quoting) (oneLine : Bool) (read : List Char)
  /-- At the start of a string between three quotes, where one line end is left out,
  and after the carriage return of such a line end. -/
  | opening (q : Quoting)
  | openingReturn (q : Quoting)
  /-- After a carriage return in a string between three quotes. -/
  | innerReturn (q : Quoting) (read : List Char)
  /-- After some quotes in a string between three quotes. -/
  | closing (q : Quoting) (count : Nat) (read : List Char)
  /-- After a backslash. -/
  | escape (oneLine : Bool) (read : List Char)
  /-- In a numeric escape that `more + 1` digits are still missing of. -/
  | code (oneLine : Bool) (more : Nat) (value : Nat) (read : List Char)
  /-- Between a backslash and the end of its line, then up to the next character that
  is not blank; `ended` tells that the line end was seen. -/
  | folding (ended : Bool) (read : List Char)
  | foldingReturn (read : List Char)
  deriving DecidableEq, Repr

namespace Lexer

/-- The blanks of a line. -/
def isLineBlank (c : Char) : Bool := c = ' ' || c = '\t'

/-- A character that may stand in a comment or a string as it is. -/
def isPlain (c : Char) : Bool := c = '\t' || (0x20 ≤ c.toNat && c.toNat ≠ 0x7F)

/-- The token of a punctuation mark. -/
def punctuation? : Char → Option Token
  | '.' => some .dot
  | '=' => some .equals
  | ',' => some .comma
  | '[' => some .openBracket
  | ']' => some .closeBracket
  | '\x7b' => some .openBrace
  | '\x7d' => some .closeBrace
  | _ => none

/-- Reads a character between tokens. -/
def stepReady (c : Char) : List Token × Lexer :=
  match punctuation? c with
  | some t => ([t], .ready)
  | none =>
    if c = '\n' then ([.newline], .ready)
    else if c = '\r' then ([], .lineEnd)
    else if isLineBlank c then ([], .blank [c])
    else if c = '#' then ([], .comment)
    else if c = '"' then ([], .quote .basic)
    else if c = '\'' then ([], .quote .literal)
    else ([], .atom [c])

/-- Whether a character ends an atom. -/
def endsAtom (c : Char) : Bool :=
  (punctuation? c).isSome || isLineBlank c || c = '\n' || c = '\r' || c = '#' || c = '"' || c = '\''

/-- Reads a character in a string. -/
def stepInside (q : Quoting) (oneLine : Bool) (read : List Char) (c : Char) :
    Option (List Token × Lexer) :=
  if c = q.mark then
    if oneLine then some ([.text true read.reverse], .ready)
    else some ([], .closing q 1 read)
  else if c = '\\' ∧ q = .basic then some ([], .escape oneLine read)
  else if isPlain c then some ([], .inside q oneLine (c :: read))
  else if oneLine then none
  else if c = '\n' then some ([], .inside q oneLine (c :: read))
  else if c = '\r' then some ([], .innerReturn q read)
  else none

/-- The character of a short escape. -/
def shortEscape? : Char → Option Char
  | 'b' => some '\x08'
  | 't' => some '\t'
  | 'n' => some '\n'
  | 'f' => some '\x0c'
  | 'r' => some '\r'
  | 'e' => some '\x1b'
  | '"' => some '"'
  | '\\' => some '\\'
  | _ => none

/-- The number of digits of a numeric escape, less one. -/
def codeLength? : Char → Option Nat
  | 'x' => some 1
  | 'u' => some 3
  | 'U' => some 7
  | _ => none

/-- The character with a code; surrogates have none. -/
def charOf? (n : Nat) : Option Char :=
  if n < 0xD800 ∨ (0xDFFF < n ∧ n < 0x110000) then some (Char.ofNat n) else none

/-- Reads a character after a backslash. -/
def stepEscape (oneLine : Bool) (read : List Char) (c : Char) : Option (List Token × Lexer) :=
  match shortEscape? c, codeLength? c with
  | some e, _ => some ([], .inside .basic oneLine (e :: read))
  | none, some more => some ([], .code oneLine more 0 read)
  | none, none =>
    if oneLine then none
    else if isLineBlank c then some ([], .folding false read)
    else if c = '\n' then some ([], .folding true read)
    else if c = '\r' then some ([], .foldingReturn read)
    else none

/-- Reads a character of a numeric escape. -/
def stepCode (oneLine : Bool) (more value : Nat) (read : List Char) (c : Char) :
    Option (List Token × Lexer) :=
  (Text.digit? 16 c).bind fun d =>
    match more with
    | more + 1 => some ([], .code oneLine more (value * 16 + d) read)
    | 0 => (charOf? (value * 16 + d)).map fun e => ([], .inside .basic oneLine (e :: read))

/-- The content of a string between three quotes that ends with more than three. -/
def closed (q : Quoting) (count : Nat) (read : List Char) : Token :=
  .text false (List.replicate (count - 3) q.mark ++ read).reverse

/-- Puts a token in front of those of a step. -/
def after (t : Token) (r : List Token × Lexer) : List Token × Lexer := (t :: r.1, r.2)

/-- Reads one character; `none` if it is out of place. -/
def step : Lexer → Char → Option (List Token × Lexer)
  | .ready, c => some (stepReady c)
  | .blank read, c =>
    if isLineBlank c then some ([], .blank (c :: read))
    else some (after (.blank read.reverse) (stepReady c))
  | .atom read, c =>
    if endsAtom c then some (after (.atom read.reverse) (stepReady c))
    else some ([], .atom (c :: read))
  | .comment, c =>
    if c = '\n' then some ([.newline], .ready)
    else if c = '\r' then some ([], .lineEnd)
    else if isPlain c then some ([], .comment)
    else none
  | .lineEnd, c => if c = '\n' then some ([.newline], .ready) else none
  | .quote q, c => if c = q.mark then some ([], .quotes q) else stepInside q true [] c
  | .quotes q, c =>
    if c = q.mark then some ([], .opening q) else some (after (.text true []) (stepReady c))
  | .inside q oneLine read, c => stepInside q oneLine read c
  | .opening q, c =>
    if c = '\n' then some ([], .inside q false [])
    else if c = '\r' then some ([], .openingReturn q)
    else stepInside q false [] c
  | .openingReturn q, c => if c = '\n' then some ([], .inside q false []) else none
  | .innerReturn q read, c =>
    if c = '\n' then some ([], .inside q false ('\n' :: '\r' :: read)) else none
  | .closing q count read, c =>
    -- Up to two quotes may stand in front of the three that close the string.
    if c = q.mark ∧ count < 5 then some ([], .closing q (count + 1) read)
    else if 3 ≤ count then some (after (closed q count read) (stepReady c))
    else stepInside q false (List.replicate count q.mark ++ read) c
  | .escape oneLine read, c => stepEscape oneLine read c
  | .code oneLine more value read, c => stepCode oneLine more value read c
  | .folding ended read, c =>
    if isLineBlank c then some ([], .folding ended read)
    else if c = '\n' then some ([], .folding true read)
    else if c = '\r' then some ([], .foldingReturn read)
    else if ended then stepInside .basic false read c
    else none
  | .foldingReturn read, c => if c = '\n' then some ([], .folding true read) else none

/-- The tokens that the end of the document ends; `none` if it cuts one off. -/
def finish : Lexer → Option (List Token)
  | .ready | .comment => some []
  | .blank read => some [.blank read.reverse]
  | .atom read => some [.atom read.reverse]
  | .quotes _ => some [.text true []]
  | .closing q count read => if 3 ≤ count then some [closed q count read] else none
  | _ => none

/-- The tokens from a position of the automaton on. -/
def run : Lexer → List Char → Option (List Token)
  | l, [] => l.finish
  | l, c :: cs =>
    match l.step c with
    | none => none
    | some (ts, l) => (run l cs).map (ts ++ ·)

end Lexer

/-- A document without the byte order mark it may start with. -/
def withoutMark : List Char → List Char
  | c :: cs => if c.toNat = 0xFEFF then cs else c :: cs
  | [] => []

/-- The tokens of a document. -/
def tokens? (cs : List Char) : Option (List Token) := Lexer.ready.run (withoutMark cs)

end Toml
end LintGate
