import LintGate.Text.Lines

/-!
# Searching a text for a pattern

A pattern is a row of parts.  Where a part can match in several ways, the way that takes the most
is tried first, and the others only if the parts behind it do not match after it.  The first place
of a text where the whole row matches in some way counts, and there the first such way.

## Main definitions

* `Place` — a place in a text.
* `Part`, `Part.ways` — a part of a pattern, and the ways in which it matches, as they are tried.
* `keptBy` — what the ways to match a whole row keep.
* `search` — what the first match in a text keeps.

## Main results

* `flatMap_greedy` — only the longest run counts if nothing matches after a shorter one.
* `keptBy_chars` — the ways to match a given text.
-/

namespace LintGate
namespace Text

/-- A place in a text: what is behind it, the nearest first, and what is ahead. -/
structure Place where
  behind : List Char
  ahead : List Char

namespace Place

/-- Whether a line starts at the place. -/
def startsLine (x : Place) : Bool := x.behind.head?.all (· == '\n')

/-- Whether a line ends at the place. -/
def endsLine (x : Place) : Bool := x.ahead.head?.all (· == '\n')

end Place

/-- One part of a pattern. -/
inductive Part
  /-- A place where a line starts. -/
  | lineStart
  /-- A place where a line ends. -/
  | lineEnd
  | char (c : Char)
  /-- Characters of a class. -/
  | many (p : Char → Bool)
  /-- Characters of a class, one at least, which are kept. -/
  | kept (p : Char → Bool)

/-- The runs of characters of a class that start at a place, the longest first, with the places
where they end. -/
def greedy (p : Char → Bool) : List Char → List Char → List (List Char × Place)
  | behind, [] => [([], ⟨behind, []⟩)]
  | behind, c :: cs =>
    (if p c then (greedy p (c :: behind) cs).map fun w => (c :: w.1, w.2) else []) ++
      [([], ⟨behind, c :: cs⟩)]

/-- The ways in which a part matches at a place, as they are tried: what is kept, and the place
behind. -/
def Part.ways : Part → Place → List (List (List Char) × Place)
  | .lineStart, x => if x.startsLine then [([], x)] else []
  | .lineEnd, x => if x.endsLine then [([], x)] else []
  | .char c, ⟨behind, d :: ds⟩ => if d = c then [([], ⟨c :: behind, ds⟩)] else []
  | .char _, ⟨_, []⟩ => []
  | .many p, x => (greedy p x.behind x.ahead).map fun w => ([], w.2)
  | .kept p, x =>
    (greedy p x.behind x.ahead).flatMap fun w => if w.1 = [] then [] else [([w.1], w.2)]

/-- What the ways to match a row of parts keep, as they are tried. -/
def keptBy : List Part → Place → List (List (List Char))
  | [], _ => [[]]
  | t :: ts, x => (t.ways x).flatMap fun w => (keptBy ts w.2).map (w.1 ++ ·)

/-- What the first match from a place on keeps. -/
def searchFrom (ts : List Part) : List Char → List Char → Option (List (List Char))
  | behind, [] => (keptBy ts ⟨behind, []⟩).head?
  | behind, c :: cs => (keptBy ts ⟨behind, c :: cs⟩).head?.or (searchFrom ts (c :: behind) cs)

/-- What the first match in a text keeps. -/
def search (ts : List Part) (cs : List Char) : Option (List (List Char)) := searchFrom ts [] cs

/-! ### Runs -/

variable {p : Char → Bool}

/-- Only the longest run counts if nothing comes of one that more could be added to. -/
theorem flatMap_greedy {β : Type} {f : List Char × Place → List β}
    (hf : ∀ taken behind c cs, p c = true → f (taken, ⟨behind, c :: cs⟩) = [])
    (behind cs : List Char) :
    (greedy p behind cs).flatMap f =
      f (cs.takeWhile p, ⟨(cs.takeWhile p).reverse ++ behind, cs.dropWhile p⟩) := by
  induction cs generalizing behind f with
  | nil => simp [greedy]
  | cons c cs ih =>
    cases hc : p c with
    | false => simp [greedy, hc]
    | true =>
      have hlonger := ih (f := fun w => f (c :: w.1, w.2)) (fun taken => hf (c :: taken))
        (c :: behind)
      rw [greedy, if_pos hc, List.flatMap_append, List.flatMap_map, hlonger, List.flatMap_singleton,
        hf [] behind c cs hc]
      simp [hc]

/-- A run of which more is ahead, if it is not in the class. -/
theorem greedy_cons_of_not {c : Char} (hc : p c = false) (behind cs : List Char) :
    greedy p behind (c :: cs) = [([], ⟨behind, c :: cs⟩)] := by
  simp [greedy, hc]

/-! ### Rows of parts -/

theorem keptBy_cons (t : Part) (ts : List Part) (x : Place) :
    keptBy (t :: ts) x = (t.ways x).flatMap fun w => (keptBy ts w.2).map (w.1 ++ ·) := rfl

theorem keptBy_lineStart (ts : List Part) (x : Place) :
    keptBy (.lineStart :: ts) x = if x.startsLine then keptBy ts x else [] := by
  rw [keptBy_cons, Part.ways]
  split <;> simp

theorem keptBy_many (ts : List Part) (behind cs : List Char) :
    keptBy (.many p :: ts) ⟨behind, cs⟩ = (greedy p behind cs).flatMap fun w => keptBy ts w.2 := by
  simp [keptBy_cons, Part.ways, List.flatMap_map]

theorem keptBy_kept (ts : List Part) (behind cs : List Char) :
    keptBy (.kept p :: ts) ⟨behind, cs⟩ = (greedy p behind cs).flatMap fun w =>
      if w.1 = [] then [] else (keptBy ts w.2).map (w.1 :: ·) := by
  rw [keptBy_cons, Part.ways, List.flatMap_assoc]
  refine congrArg (greedy p behind cs).flatMap (funext fun w => ?_)
  split <;> simp

/-- The ways to match a given text and then a row of parts. -/
theorem keptBy_chars (word : List Char) (ts : List Part) (behind cs : List Char) :
    keptBy (word.map .char ++ ts) ⟨behind, cs⟩ =
      ((dropInit? word cs).map fun rest => keptBy ts ⟨word.reverse ++ behind, rest⟩).getD [] := by
  induction word generalizing behind cs with
  | nil => rfl
  | cons c word ih =>
    cases cs with
    | nil => rfl
    | cons d cs =>
      rw [List.map_cons, List.cons_append, keptBy_cons, Part.ways, dropInit?]
      by_cases hd : d = c
      · subst hd
        simp [ih]
      · simp [hd, Ne.symm hd]

end Text
end LintGate
