import LintGate.Discovery

/-!
# Scripts of a git work tree

## Main definitions

* `Git.requireWorkTree` — makes sure that a root lies in a work tree.
* `Git.isIgnored` — whether git ignores a script.
* `Git.findScripts` — the scripts of a work tree that git does not ignore.
-/

namespace LintGate
namespace Git

open Text

/-- Makes sure that a root lies in a work tree. -/
def requireWorkTree (root : String) : Action Unit := do
  let o ← Action.trial (.command "git" ["rev-parse", "--is-inside-work-tree"] (some root))
    fun e => .discovery root ("failed to run git: " ++ e.message)
  if o.status.isSuccess && strip o.outText == "true".toList then return ()
  else throw (.discovery root ("not a git work tree: " ++ o.complaint))

/-- Whether git ignores a script. -/
def isIgnored (root : String) (s : ScriptPath) : Action Bool := do
  let o ← Action.trial (.command "git" ["check-ignore", "-q", "--", s.text] (some root)) .os
  match o.status with
  | .code 0 => return true
  | .code 1 => return false
  | _ => throw (.discovery root ("git check-ignore failed for " ++ s.text ++ ": " ++ o.complaint))

/-- The scripts of a work tree that git does not ignore. -/
def findScripts (root : String) (c : DiscoveryConfig) : Action (List ScriptPath) := do
  requireWorkTree root
  let filter ← Action.ofExcept (Discovery.Filter.ofConfig? c)
  let tree ← Action.ask (.survey root)
  Discovery.find filter (isIgnored root) tree

end Git
end LintGate
