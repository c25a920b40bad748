import LintGate.Address.Read
import LintGate.Program.Basic

/-!
# Pages

A page is what can be downloaded: it has an address of the web that names a host, and its
address fits into a request.  A user in an address is told to the server in another place.

## Main definitions

* `Address.withoutUser` — the address that is asked for.
* `Address.canBeAsked` — whether an address fits into a request.
* `Address.page?` — the page that a text names, or why it names none.
-/

namespace LintGate
namespace Address

/-- Whether a user can be told to the server: what is written has to be text, and there has
to be something. -/
def User.isTold (u : User) : Bool :=
  let isText (cs : List Char) : Bool := (Text.decode? (unescape cs)).isSome
  isText u.name && (u.name ≠ [] || u.password.any isText)

/-- The address without the user, who is told to the server in another place. -/
def withoutUser (a : Address) : Address :=
  { a with authority := a.authority.map fun auth =>
      if auth.user.isTold then { auth with user := {} } else auth }

/-- Whether the address is one of pages. -/
def isPage (a : Address) : Bool := a.scheme = "http".toList || a.scheme = "https".toList

/-- How many bytes a request line can hold. -/
def maxSize : Nat := 65534

/-- Whether a page can be asked for: some characters may stand in the name of a host, but
not in a request. -/
def canBeAsked (a : Address) : Bool :=
  let isOdd (c : Char) : Bool := c = '"' || c.toNat = 0x60 || c.toNat = 0x7B || c.toNat = 0x7D
  (String.ofList a.toText).utf8ByteSize ≤ maxSize &&
    match a.host? with
    | some (.name cs) => !cs.any isOdd
    | _ => true

/-- The page that a text names, without a user.  Only pages of a host can be downloaded. -/
def page? (url : String) : Except FetchFault Address :=
  match ofText? url.toList with
  | none => .error .noAddress
  | some a =>
    if a.host? = none then .error (.foreign (String.ofList a.toText))
    else
      let a := a.withoutUser
      if a.isPage && a.canBeAsked then .ok a else .error (.foreign (String.ofList a.toText))

end Address
end LintGate
