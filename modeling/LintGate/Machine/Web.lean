import LintGate.Address.Page

/-!
# Servers

## Main definitions

* `Web` — the servers that can be reached.
* `Web.fetch` — downloads from them.
-/

namespace LintGate

/-- The servers that can be reached. -/
inductive Web
  /-- None. -/
  | offline
  /-- One, with what it answers for its paths. -/
  | serving (base : String) (pages : List (String × Reply))

namespace Web

/-- The path of an address below a base. -/
def pathBelow? (base url : String) : Option String :=
  (Text.dropInit? base.toList url.toList).map String.ofList

/-- The answer for an address as it is shown. -/
def reply? (w : Web) (shown : String) : Option (Reply × String) :=
  match w with
  | offline => none
  | serving base pages =>
    (pathBelow? base shown).map fun path => ((pages.lookup path).getD ⟨404, []⟩, path)

/-- What comes of a download; the path is given if the server was asked for it. -/
def fetch (w : Web) (url : String) : Except FetchFault Reply × Option String :=
  match Address.page? url with
  | .error e => (.error e, none)
  | .ok a =>
    -- A fragment is for the reader of a page, and not sent.
    match w.reply? (String.ofList { a with fragment := none }.toText) with
    | none => (.error (.unreachable (String.ofList a.toText)), none)
    | some (reply, path) => (.ok reply, some path)

end Web
end LintGate
