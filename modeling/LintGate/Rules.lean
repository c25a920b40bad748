import LintGate.Glob
import LintGate.Path
import LintGate.Text.Blank

/-!
# Path rules

A rule is a path whose components are patterns.  It covers a path when it matches
the path itself or a directory above it, so `vendor` covers `vendor/a/b.sh`, and `_*`
covers `_output/x.sh` but not `hack/_tmp/x.sh`.  Files covered by an exclude rule are
not linted unless an include rule covers them too.

## Main definitions

* `Rule`, `Rule.ofText?` — a rule and how it is written.
* `Rule.covers`, `Rule.reachesBelow` — which paths a rule speaks of.
* `PathRules`, `PathRules.eligible`, `PathRules.prunes` — the exclude and include
  rules of a repository, the files they leave, and the directories that hold none.
-/

namespace LintGate

open Text

/-- The components of a path as it is split at its slashes. -/
abbrev Components := List (List Char)

/-- Why a text is no rule. -/
inductive RuleFault
  /-- No component is left of it. -/
  | empty
  /-- A component is no pattern. -/
  | pattern (fault : Glob.Fault)
  deriving DecidableEq, Repr

/-- The wording of a fault in a rule. -/
def RuleFault.message : RuleFault → String
  | .empty => "empty prefix"
  | .pattern f => f.message

/-- A pattern for each component, from the root on. -/
structure Rule where
  patterns : List Glob.Pattern
  deriving DecidableEq, Repr

namespace Rule

/-- What a written rule says: no outer blanks, no `./` in front, no slash behind. -/
def body (cs : List Char) : List Char := Path.dropSlashes (Path.dropDots (strip cs))

/-- The rule that a text spells; the first component that is no pattern counts. -/
def ofText? (raw : String) : Except RuleFault Rule :=
  match body raw.toList with
  | [] => .error .empty
  | cs =>
    match (splitOn '/' cs).mapM Glob.Pattern.ofText? with
    | .ok ps => .ok ⟨ps⟩
    | .error f => .error (.pattern f)

/-- Whether the patterns match the first components, one by one, as far as both go. -/
def agrees : List Glob.Pattern → Components → Bool
  | p :: ps, c :: cs => p.accepts c && agrees ps cs
  | _, _ => true

/-- Whether the rule matches a path or a directory above it. -/
def covers (r : Rule) (path : Components) : Bool :=
  decide (r.patterns.length ≤ path.length) && agrees r.patterns path

/-- Whether the rule covers a directory or may cover something below it. -/
def reachesBelow (r : Rule) (dir : Components) : Bool :=
  r.covers dir || (decide (dir.length < r.patterns.length) && agrees r.patterns dir)

@[simp] theorem agrees_nil_left (cs : Components) : agrees [] cs = true := rfl

@[simp] theorem agrees_nil_right (ps : List Glob.Pattern) : agrees ps [] = true := by
  cases ps <;> rfl

@[simp] theorem agrees_cons_cons (p : Glob.Pattern) (ps : List Glob.Pattern)
    (c : List Char) (cs : Components) :
    agrees (p :: ps) (c :: cs) = (p.accepts c && agrees ps cs) := rfl

/-- The rule reaches below a directory as soon as it agrees with it. -/
theorem reachesBelow_eq_agrees (r : Rule) (dir : Components) :
    r.reachesBelow dir = agrees r.patterns dir := by
  unfold reachesBelow covers
  rcases Nat.lt_or_ge dir.length r.patterns.length with h | h
  · simp [h, Nat.not_le_of_lt h]
  · simp [h, Nat.not_lt_of_le h]

end Rule

/-- The rules of a repository. -/
structure PathRules where
  excluded : List Rule
  included : List Rule
  deriving DecidableEq, Repr

namespace PathRules

/-- Reads a list of rules up to the first that is none; that one is given with its
fault. -/
def readAll? : List String → Except (String × RuleFault) (List Rule)
  | [] => .ok []
  | raw :: raws =>
    match Rule.ofText? raw with
    | .error f => .error (raw, f)
    | .ok r => (readAll? raws).map (r :: ·)

/-- Reads the exclude rules and then the include rules. -/
def ofTexts? (excluded included : List String) : Except (String × RuleFault) PathRules :=
  match readAll? excluded with
  | .error f => .error f
  | .ok ex => (readAll? included).map fun inc => ⟨ex, inc⟩

/-- Whether a file is linted: no exclude rule covers it, or an include rule does. -/
def eligible (r : PathRules) (path : Components) : Bool :=
  !r.excluded.any (·.covers path) || r.included.any (·.covers path)

/-- Whether a directory can be left out of the walk: an exclude rule covers it, and
no include rule reaches below it. -/
def prunes (r : PathRules) (dir : Components) : Bool :=
  r.excluded.any (·.covers dir) && !r.included.any (·.reachesBelow dir)

end PathRules
end LintGate
