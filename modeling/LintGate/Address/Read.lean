import LintGate.Address.Path

/-!
# Reading addresses

Control characters and blanks around an address do not count, nor do tabs and line ends
inside it.  What follows the scheme is read by its kind: an address of the web always names
a host, that of a file may, and any other one does so only behind two slashes.

## Main definitions

* `scheme?` — the scheme of an address, and the rest.
* `authority?` — the authority at the start of a text, and the rest.
* `fileParts?` — the host and the names in the address of a file.
* `Address.ofText?` — the address that a text spells.
-/

namespace LintGate
namespace Address

/-! ### Pieces of an address -/

/-- The text of an address without the characters that do not count. -/
def trimmed (cs : List Char) : List Char :=
  let isOuter (c : Char) : Bool := c.toNat ≤ 0x20
  let inner := ((cs.dropWhile isOuter).reverse.dropWhile isOuter).reverse
  inner.filter fun c => c ≠ '\t' && c ≠ '\n' && c ≠ '\r'

/-- The scheme of an address, in small letters, and the text behind its colon. -/
def scheme? (cs : List Char) : Option (List Char × List Char) :=
  match cs.takeWhile (· ≠ ':'), cs.dropWhile (· ≠ ':') with
  | c :: scheme, _ :: rest =>
    if c.isAlpha && scheme.all (fun d => d.isAlphanum || d = '+' || d = '-' || d = '.') then
      some ((c :: scheme).map Char.toLower, rest)
    else none
  | _, _ => none

/-- Whether a character separates names. -/
def isSlash (kind : SchemeKind) (c : Char) : Bool := c = '/' || (c = '\\' && kind.isSpecial)

/-- Whether a character ends an authority. -/
def endsAuthority (kind : SchemeKind) (c : Char) : Bool := isSlash kind c || c = '?' || c = '#'

/-- The names between the slashes of a text, escaped. -/
def namesIn (kind : SchemeKind) (cs : List Char) : List (List Char) :=
  (Text.splitOn '/' (cs.map fun c => if isSlash kind c then '/' else c)).map (escape .path)

/-- The text behind the slash it starts with, if it starts with one. -/
def behindSlash (kind : SchemeKind) : List Char → List Char
  | c :: cs => if isSlash kind c then cs else c :: cs
  | [] => []

/-- A path, a query and a fragment, in front of their marks and behind them. -/
def tailParts (cs : List Char) : List Char × Option (List Char) × Option (List Char) :=
  let isMark (c : Char) : Bool := c = '?' || c = '#'
  let (path, rest) := (cs.takeWhile (!isMark ·), cs.dropWhile (!isMark ·))
  match rest with
  | '?' :: rest =>
    let (query, rest) := (rest.takeWhile (· ≠ '#'), rest.dropWhile (· ≠ '#'))
    (path, some query, if rest.isEmpty then none else some (rest.drop 1))
  | _ :: fragment => (path, none, some fragment)
  | [] => (path, none, none)

/-! ### Authorities -/

/-- The user that a text in front of the host names. -/
def userOf (cs : List Char) : User :=
  let word := (cs.dropWhile (· ≠ ':')).drop 1
  { name := escape .user (cs.takeWhile (· ≠ ':'))
    password := if word.isEmpty then none else some (escape .user word) }

/-- The text of a host, which ends in front of its port, and the rest; a colon in brackets
belongs to the host. -/
def splitHost (kind : SchemeKind) (inBrackets : Bool) : List Char → List Char × List Char
  | [] => ([], [])
  | c :: cs =>
    if endsAuthority kind c || (c = ':' && !inBrackets) then ([], c :: cs)
    else
      let (host, rest) := splitHost kind (c = '[' || (inBrackets && c ≠ ']')) cs
      (c :: host, rest)

/-- The port behind a host, unless it is the one that the scheme stands for, and the
rest. -/
def port? (scheme : List Char) : List Char → Option (Option Nat × List Char)
  | ':' :: cs =>
    let (digits, rest) := (cs.takeWhile Char.isDigit, cs.dropWhile Char.isDigit)
    if rest.head?.all (fun c => c = '\\' || endsAuthority .other c) then
      (bounded? 10 digits).bind fun n =>
        if 65535 < n then none
        else if digits = [] ∨ defaultPort? scheme = some n then some (none, rest)
        else some (some n, rest)
    else none
  | cs => some (none, cs)

/-- The host of a text.  On the web there has to be one. -/
def hostOf? (kind : SchemeKind) (cs : List Char) : Option (Option Host) :=
  match kind, cs with
  | .other, [] => some none
  | .other, cs => (Host.ofOpaque? cs).map some
  | _, cs => (Host.ofText? cs).map some

/-- The authority at the start of a text, and the rest.  A user or a port needs a host, and
so does the sign behind a user. -/
def authority? (scheme cs : List Char) : Option (Authority × List Char) :=
  let kind := SchemeKind.of scheme
  let front := cs.takeWhile (!endsAuthority kind ·)
  -- Of several signs only the last one stands in front of the host.
  let user := (front.reverse.dropWhile (· ≠ '@')).reverse.dropLast
  let rest := if front.contains '@' then cs.drop (user.length + 1) else cs
  if front.contains '@' ∧ user = [] ∧ rest.head?.all (endsAuthority kind) then none
  else
    let (name, rest) := splitHost kind false rest
    let user := userOf user
    (hostOf? kind name).bind fun host => (port? scheme rest).bind fun (port, after) =>
      if host = none ∧ (user ≠ {} ∨ rest.head? = some ':') then none
      else some (⟨user, host, port⟩, after)

/-! ### Files -/

/-- The host and the names in the address of a file.  A path that starts with a drive has
no host, and the machine itself is not named. -/
def fileParts? (cs : List Char) : Option (Option Host × List (List Char)) :=
  match cs with
  | a :: b :: rest =>
    if isSlash .file a && isSlash .file b then
      let host := rest.takeWhile (!endsAuthority .file ·)
      if isDrive host then some (none, namesIn .file rest)
      else
        let after := namesIn .file (behindSlash .file (rest.drop host.length))
        if host = [] then some (none, after)
        else
          (Host.ofText? host).map fun h =>
            (if h = .name "localhost".toList then none else some h, after)
    else some (none, namesIn .file (behindSlash .file cs))
  | _ => some (none, namesIn .file (behindSlash .file cs))

/-! ### Addresses -/

/-- The authority and the path behind a scheme. -/
def frontParts? (scheme cs : List Char) : Option (Option Authority × List Char) :=
  match SchemeKind.of scheme with
  | .file =>
    (fileParts? cs).map fun (host, written) =>
      let names := pathNames .file written
      (some { host := if namesDrive names then none else host }, pathText .file names)
  | .web =>
    (authority? scheme (cs.dropWhile (isSlash .web))).map fun (auth, rest) =>
      (some auth, pathText .web (pathNames .web (namesIn .web (behindSlash .web rest))))
  | .other =>
    let path (cs : List Char) : List Char :=
      pathText .other (pathNames .other (namesIn .other (behindSlash .other cs)))
    match cs with
    | '/' :: '/' :: cs =>
      (authority? scheme cs).map fun (auth, rest) =>
        (some auth, if rest = [] then [] else path rest)
    | '/' :: cs => some (none, path ('/' :: cs))
    | cs => some (none, escape .plain cs)

/-- The address that a text spells. -/
def ofText? (cs : List Char) : Option Address :=
  (scheme? (trimmed cs)).bind fun (scheme, rest) =>
    let kind := SchemeKind.of scheme
    let (front, query, fragment) := tailParts rest
    (frontParts? scheme front).map fun (authority, path) =>
      { scheme, authority, path
        query := query.map (escape (.query kind.isSpecial))
        fragment := fragment.map (escape .fragment) }

end Address
end LintGate
