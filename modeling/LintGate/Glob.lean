/-!
# Wildcard patterns for one path component

A pattern is matched against a whole component: `?` stands for one character, `*` for
any run of characters, `[abc]`, `[a-z]` and `[!abc]` for one character in a class or
outside it, and everything else for itself.  The first character of a class is taken
as it is, so a class may hold `]`.  Two stars are a pattern only on their own.

## Main definitions

* `Glob.Token`, `Glob.Pattern` — the parts of a pattern.
* `Glob.Fault` — why a text is no pattern, and at which character.
* `Glob.Pattern.ofText?` — the pattern that a text spells.
* `Glob.Pattern.accepts` — whether a component matches; `accepts_run_cons` and
  `accepts_one_cons` say so for each kind of part.
-/

namespace LintGate
namespace Glob

/-- A member of a class: a range of characters, both ends included. -/
structure Span where
  low : Char
  high : Char
  deriving DecidableEq, Repr

/-- One part of a pattern. -/
inductive Token
  | char (c : Char)
  | any
  | run
  | oneOf (spans : List Span)
  | noneOf (spans : List Span)
  deriving DecidableEq, Repr

/-- A pattern is a list of parts. -/
abbrev Pattern := List Token

/-- Why a text is no pattern. -/
inductive FaultKind
  /-- A bracket opens no class. -/
  | range
  /-- Three or more stars in a row. -/
  | stars
  /-- Two stars that share their component with something else. -/
  | doubleStar
  deriving DecidableEq, Repr

/-- A fault and the number of characters in front of it. -/
structure Fault where
  position : Nat
  kind : FaultKind
  deriving DecidableEq, Repr

/-- The wording of a fault. -/
def FaultKind.message : FaultKind → String
  | .range => "invalid range pattern"
  | .stars => "wildcards are either regular `*` or recursive `**`"
  | .doubleStar => "recursive wildcards must form a single path component"

/-- The wording of a fault with its position. -/
def Fault.message (f : Fault) : String :=
  "Pattern syntax error near position " ++ toString f.position ++ ": " ++ f.kind.message

/-! ### Classes -/

/-- Whether a character lies in one of the ranges.  A reversed range holds none. -/
def inSpans (spans : List Span) (c : Char) : Bool :=
  spans.any fun s => s.low ≤ c && c ≤ s.high

/-- The ranges that the text between the brackets lists. -/
def spansOf : List Char → List Span
  | a :: '-' :: b :: cs => ⟨a, b⟩ :: spansOf cs
  | a :: cs => ⟨a, a⟩ :: spansOf cs
  | [] => []

/-- The text before the first closing bracket, and the text after it. -/
def untilClose : List Char → Option (List Char × List Char)
  | [] => none
  | ']' :: cs => some ([], cs)
  | c :: cs => (untilClose cs).map fun (inner, after) => (c :: inner, after)

theorem length_of_untilClose {cs inner after : List Char}
    (h : untilClose cs = some (inner, after)) : after.length < cs.length := by
  induction cs generalizing inner with
  | nil => simp [untilClose] at h
  | cons c cs ih =>
    unfold untilClose at h
    split at h
    · exact absurd ‹c :: cs = []› (by simp)
    · rename_i r heq
      obtain ⟨_, rfl⟩ := List.cons.inj heq
      simp only [Option.some.injEq, Prod.mk.injEq] at h
      simp [h.2]
    · rename_i r _ heq
      obtain ⟨_, rfl⟩ := List.cons.inj heq
      simp only [Option.map_eq_some_iff, Prod.mk.injEq, Prod.exists] at h
      obtain ⟨i, a, hr, -, rfl⟩ := h
      exact Nat.lt_succ_of_lt (ih hr)

/-- Reads a class after its opening bracket: its first character is taken as it is. -/
def classOf? : List Char → Option (Token × List Char)
  | '!' :: c :: cs =>
    (untilClose cs).map fun (inner, after) => (.noneOf (spansOf (c :: inner)), after)
  | '!' :: [] => none
  | c :: cs => (untilClose cs).map fun (inner, after) => (.oneOf (spansOf (c :: inner)), after)
  | [] => none

theorem length_of_classOf? {cs after : List Char} {t : Token}
    (h : classOf? cs = some (t, after)) : after.length < cs.length := by
  unfold classOf? at h
  split at h
  · simp only [Option.map_eq_some_iff, Prod.mk.injEq, Prod.exists] at h
    obtain ⟨i, a, hr, -, rfl⟩ := h
    have := length_of_untilClose hr
    simp; omega
  · simp at h
  · simp only [Option.map_eq_some_iff, Prod.mk.injEq, Prod.exists] at h
    obtain ⟨i, a, hr, -, rfl⟩ := h
    have := length_of_untilClose hr
    simp; omega
  · simp at h

/-! ### Patterns -/

/-- Reads the pattern from a position on. -/
def parse (pos : Nat) : (cs : List Char) → Except Fault Pattern
  | [] => .ok []
  | '?' :: cs => (parse (pos + 1) cs).map (Token.any :: ·)
  | '*' :: '*' :: '*' :: _ => .error ⟨pos + 2, .stars⟩
  | '*' :: '*' :: cs =>
    -- A fault behind the stars is told at its place, one in front of them before it.
    if pos ≠ 0 then .error ⟨pos - 1, .doubleStar⟩
    else if cs ≠ [] then .error ⟨2, .doubleStar⟩
    else .ok [.run]
  | '*' :: cs => (parse (pos + 1) cs).map (Token.run :: ·)
  | '[' :: cs =>
    match h : classOf? cs with
    | none => .error ⟨pos, .range⟩
    | some (t, after) =>
      have := length_of_classOf? h
      (parse (pos + 1 + (cs.length - after.length)) after).map (t :: ·)
  | c :: cs => (parse (pos + 1) cs).map (Token.char c :: ·)
termination_by cs => cs.length

/-- The pattern that a text spells. -/
def Pattern.ofText? (cs : List Char) : Except Fault Pattern := parse 0 cs

/-- Whether a part that stands for one character stands for this one. -/
def Token.acceptsChar : Token → Char → Bool
  | .char d, c => c == d
  | .any, _ => true
  | .oneOf spans, c => inSpans spans c
  | .noneOf spans, c => !inSpans spans c
  | .run, _ => true

/-- For every rest of a list of answers, whether one of them is yes. -/
def anyAfter : List Bool → List Bool
  | [] => []
  | b :: bs =>
    let after := anyAfter bs
    (b || after.headD false) :: after

/-- The answers for every rest of a text with a part in front of the pattern that `row`
holds the answers of. -/
def oneBefore (t : Token) : List Char → List Bool → List Bool
  | c :: cs, _ :: row => (t.acceptsChar c && row.headD false) :: oneBefore t cs row
  | _, _ => [false]

/-- For every rest of a text, from the whole down to the empty one, whether a pattern
matches it.  A row takes one pass over the text, so the stars of a pattern cost no more
than its other parts. -/
def Pattern.row : Pattern → List Char → List Bool
  | [], cs => cs.map (fun _ => false) ++ [true]
  | .run :: ts, cs => anyAfter (row ts cs)
  | t :: ts, cs => oneBefore t cs (row ts cs)

/-- Whether a component matches a pattern from its first character to its last. -/
def Pattern.accepts (p : Pattern) (cs : List Char) : Bool := (p.row cs).headD false

/-! ### What a pattern accepts -/

theorem Pattern.row_run (ts : Pattern) (cs : List Char) :
    Pattern.row (.run :: ts) cs = anyAfter (ts.row cs) := rfl

theorem Pattern.row_one {t : Token} (ts : Pattern) (cs : List Char) (h : t ≠ .run) :
    Pattern.row (t :: ts) cs = oneBefore t cs (ts.row cs) := by
  cases t with
  | run => exact absurd rfl h
  | _ => rfl

/-- A row starts with the answer for the whole text, and goes on with the row of its
rest. -/
theorem Pattern.row_cons (p : Pattern) (c : Char) (cs : List Char) :
    p.row (c :: cs) = p.accepts (c :: cs) :: p.row cs := by
  induction p with
  | nil => rfl
  | cons t ts ih =>
    by_cases h : t = .run
    · subst h
      rw [accepts, row_run, row_run, ih, anyAfter, List.headD_cons]
    · rw [accepts, row_one ts _ h, row_one ts _ h, ih, oneBefore, List.headD_cons]

@[simp] theorem Pattern.accepts_nil (cs : List Char) :
    Pattern.accepts [] cs = cs.isEmpty := by
  cases cs <;> rfl

/-- A star matches nothing, or one character and then as much as it likes. -/
theorem Pattern.accepts_run_cons (ts : Pattern) (c : Char) (cs : List Char) :
    Pattern.accepts (.run :: ts) (c :: cs) =
      (ts.accepts (c :: cs) || Pattern.accepts (.run :: ts) cs) := by
  rw [accepts, row_run, row_cons, anyAfter, List.headD_cons]
  rfl

/-- A part for one character matches one character. -/
theorem Pattern.accepts_one_cons {t : Token} (ts : Pattern) (c : Char) (cs : List Char)
    (h : t ≠ .run) :
    Pattern.accepts (t :: ts) (c :: cs) = (t.acceptsChar c && ts.accepts cs) := by
  rw [accepts, row_one ts _ h, row_cons, oneBefore, List.headD_cons]
  rfl

theorem Pattern.accepts_one_nil {t : Token} (ts : Pattern) (h : t ≠ .run) :
    Pattern.accepts (t :: ts) [] = false := by
  rw [accepts, row_one ts _ h]; rfl

end Glob
end LintGate
