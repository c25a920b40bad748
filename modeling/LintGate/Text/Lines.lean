/-!
# Lines and pieces of a text

## Main definitions

* `splitOn` — the pieces between the occurrences of a separator, never none.
* `joinWith` — the pieces with a separator between them.
* `lines` — the lines of a text: a line feed ends a line together with one carriage
  return right before it, and the text after the last line feed is a line unless it
  is empty.
* `dropInit?` — what is left of a list after its start.
* `pieces`, `join` — splitting and joining on strings.
-/

namespace LintGate
namespace Text

/-- The pieces of a text between the separators; an empty text is one empty piece. -/
def splitOn (sep : Char) : List Char → List (List Char)
  | [] => [[]]
  | c :: cs =>
    if c = sep then [] :: splitOn sep cs
    else
      match splitOn sep cs with
      | [] => [[c]]
      | p :: ps => (c :: p) :: ps

/-- The pieces in a row, with the separator between each two. -/
def joinWith (sep : List Char) : List (List Char) → List Char
  | [] => []
  | [p] => p
  | p :: q :: ps => p ++ sep ++ joinWith sep (q :: ps)

/-- The lines of a text, without their ends. -/
def lines : List Char → List (List Char)
  | [] => []
  | '\n' :: cs => [] :: lines cs
  | '\r' :: '\n' :: cs => [] :: lines cs
  | c :: cs =>
    match lines cs with
    | [] => [[c]]
    | l :: ls => (c :: l) :: ls

@[simp] theorem lines_nil : lines [] = [] := rfl

@[simp] theorem lines_lf (cs : List Char) : lines ('\n' :: cs) = [] :: lines cs := by
  simp [lines]

@[simp] theorem joinWith_nil (sep : List Char) : joinWith sep [] = [] := rfl

@[simp] theorem joinWith_singleton (sep p : List Char) : joinWith sep [p] = p := rfl

@[simp] theorem joinWith_cons_cons (sep p q : List Char) (ps : List (List Char)) :
    joinWith sep (p :: q :: ps) = p ++ sep ++ joinWith sep (q :: ps) := rfl

theorem splitOn_ne_nil (sep : Char) (cs : List Char) : splitOn sep cs ≠ [] := by
  cases cs with
  | nil => simp [splitOn]
  | cons c cs =>
    unfold splitOn
    split
    · simp
    · split <;> simp

/-- Nothing but the separators is lost by splitting. -/
theorem joinWith_splitOn (sep : Char) (cs : List Char) :
    joinWith [sep] (splitOn sep cs) = cs := by
  induction cs with
  | nil => rfl
  | cons c cs ih =>
    unfold splitOn
    cases h : splitOn sep cs with
    | nil => exact absurd h (splitOn_ne_nil sep cs)
    | cons p ps =>
      rw [h] at ih
      by_cases hc : c = sep
      · simp [hc, ih]
      · cases ps with
        | nil => simpa [hc, joinWith] using ih
        | cons q qs => simpa [hc, joinWith] using ih

/-! ### The start of a list -/

/-- What is left of a list after a list that it starts with. -/
def dropInit? {α : Type} [DecidableEq α] : List α → List α → Option (List α)
  | [], bs => some bs
  | _ :: _, [] => none
  | a :: as, b :: bs => if a = b then dropInit? as bs else none

@[simp] theorem dropInit?_nil {α : Type} [DecidableEq α] (bs : List α) :
    dropInit? [] bs = some bs := rfl

/-- A list starts with the list that is dropped from it. -/
theorem dropInit?_eq_some_iff {α : Type} [DecidableEq α] {as bs cs : List α} :
    dropInit? as bs = some cs ↔ bs = as ++ cs := by
  induction as generalizing bs with
  | nil => simp [dropInit?, eq_comm]
  | cons a as ih =>
    cases bs with
    | nil => simp [dropInit?]
    | cons b bs =>
      by_cases h : a = b
      · simp [dropInit?, h, ih]
      · simp [dropInit?, h, Ne.symm h]

/-! ### Strings -/

/-- The pieces of a string between the separators. -/
def pieces (sep : Char) (s : String) : List String :=
  (splitOn sep s.toList).map String.ofList

/-- Strings in a row, with a separator between each two. -/
def join (sep : String) (ps : List String) : String :=
  String.ofList (joinWith sep.toList (ps.map String.toList))

end Text
end LintGate
