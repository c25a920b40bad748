import LintGate.Address.Host

/-!
# Addresses

## Main definitions

* `SchemeKind` — the kinds of schemes, which differ in how an address is read.
* `Authority`, `Address` — the parts of an address.
* `Address.toText` — how an address is shown.
-/

namespace LintGate

namespace Address

/-- The kinds of schemes. -/
inductive SchemeKind
  /-- The schemes of the web and its kin, which always name a host. -/
  | web
  | file
  | other
  deriving DecidableEq, Repr

/-- The kind of a scheme. -/
def SchemeKind.of (scheme : List Char) : SchemeKind :=
  if scheme = "file".toList then file
  else if ["http", "https", "ws", "wss", "ftp"].any (·.toList = scheme) then web
  else other

/-- Whether a backslash counts as a slash. -/
def SchemeKind.isSpecial (k : SchemeKind) : Bool := k ≠ other

/-- The port that a scheme stands for, which is never shown. -/
def defaultPort? (scheme : List Char) : Option Nat :=
  if scheme = "http".toList ∨ scheme = "ws".toList then some 80
  else if scheme = "https".toList ∨ scheme = "wss".toList then some 443
  else if scheme = "ftp".toList then some 21
  else none

/-- A user and the password, both escaped. -/
structure User where
  name : List Char := []
  password : Option (List Char) := none
  deriving DecidableEq, Repr

/-- Who is asked: without a host, nobody in particular. -/
structure Authority where
  user : User := {}
  host : Option Host := none
  port : Option Nat := none
  deriving DecidableEq, Repr

end Address

/-- An address.  Without an authority its path need not start with a slash. -/
structure Address where
  scheme : List Char
  authority : Option Address.Authority
  path : List Char
  query : Option (List Char) := none
  fragment : Option (List Char) := none
  deriving DecidableEq, Repr

namespace Address

/-- A user as it is shown in front of the host. -/
def User.toText (u : User) : List Char :=
  match u with
  | ⟨[], none⟩ => []
  | ⟨name, none⟩ => name ++ ['@']
  | ⟨name, some word⟩ => name ++ ':' :: word ++ ['@']

/-- An authority as it is shown. -/
def Authority.toText (a : Authority) : List Char :=
  "//".toList ++ a.user.toText ++ (a.host.map Host.toText).getD [] ++
    (a.port.map fun n => ':' :: Nat.toDigits 10 n).getD []

/-- An address as it is shown.  Two slashes at the start of a path are kept from being
taken for the start of an authority. -/
def toText (a : Address) : List Char :=
  let front :=
    match a.authority with
    | some auth => auth.toText
    | none => if "//".toList.isPrefixOf a.path then "/.".toList else []
  a.scheme ++ ':' :: front ++ a.path ++ (a.query.map ('?' :: ·)).getD [] ++
    (a.fragment.map ('#' :: ·)).getD []

/-- The host of an address. -/
def host? (a : Address) : Option Host := a.authority.bind Authority.host

end Address
end LintGate
