import LintGate.Glob

/-!
# Patterns that match one text only

Every text can be quoted: there is a pattern that matches it and nothing else.

## Main definitions

* `Glob.quote` — a text in quotes.
* `Glob.isWild` — the characters that stand for more than themselves.

## Main results

* `Glob.ofText?_quote`, `Glob.accepts_quoted` — a quoted text is a pattern, and what it
  matches.
* `Glob.ofText?_of_not_isWild`, `Glob.accepts_chars` — the same for a text without wildcards.
-/

namespace LintGate
namespace Glob

/-- A character as a part of a pattern that stands for it alone.  An exclamation mark cannot
be the only member of a class. -/
def quoteChar (c : Char) : List Char := if c = '!' then ['!'] else ['[', c, ']']

/-- A text as a pattern that stands for it alone. -/
def quote (cs : List Char) : List Char := cs.flatMap quoteChar

/-- What a quoted character is read as. -/
def Token.only (c : Char) : Token := if c = '!' then .char '!' else .oneOf [⟨c, c⟩]

theorem classOf?_of_ne {c : Char} (h : c ≠ '!') (cs : List Char) :
    classOf? (c :: ']' :: cs) = some (.oneOf [⟨c, c⟩], cs) := by
  unfold classOf?
  split
  · next he => exact absurd (List.cons.inj he).1 h
  · next he => exact absurd (List.cons.inj he).1 h
  · next he =>
    obtain ⟨rfl, rfl⟩ := List.cons.inj he
    rfl
  · next he => exact absurd he (by simp)

theorem parse_class {cs after : List Char} {t : Token} (h : classOf? cs = some (t, after))
    (pos : Nat) : parse pos ('[' :: cs) =
      (parse (pos + 1 + (cs.length - after.length)) after).map (t :: ·) := by
  rw [parse]
  split
  · next hn =>
    rw [h] at hn
    exact absurd hn (by simp)
  · next t' after' hs =>
    obtain ⟨rfl, rfl⟩ := Prod.mk.inj (Option.some.inj (h.symm.trans hs))
    rfl

theorem parse_quote (cs : List Char) (pos : Nat) :
    parse pos (quote cs) = .ok (cs.map Token.only) := by
  induction cs generalizing pos with
  | nil => simp [quote, parse]
  | cons c cs ih =>
    have hcons : quote (c :: cs) = quoteChar c ++ quote cs := rfl
    rw [hcons, quoteChar, List.map_cons, Token.only]
    split
    · simp [parse, ih, Except.map]
    · next hc =>
      rw [List.cons_append, List.cons_append, List.singleton_append,
        parse_class (classOf?_of_ne hc (quote cs)), ih]
      rfl

/-- A quoted text is a pattern. -/
theorem ofText?_quote (cs : List Char) : Pattern.ofText? (quote cs) = .ok (cs.map Token.only) :=
  parse_quote cs 0

theorem only_ne_run (c : Char) : Token.only c ≠ .run := by
  unfold Token.only
  split <;> simp

theorem acceptsChar_only (c d : Char) : (Token.only c).acceptsChar d = true ↔ d = c := by
  unfold Token.only
  split
  · next hc => simp [Token.acceptsChar, hc]
  · simp only [Token.acceptsChar, inSpans, List.any_cons, List.any_nil, Bool.or_false,
      Bool.and_eq_true, decide_eq_true_eq]
    exact ⟨fun h => Char.le_antisymm h.2 h.1, fun h => h ▸ ⟨Char.le_refl d, Char.le_refl d⟩⟩

/-- Parts that stand for one character each match one text. -/
theorem accepts_map_iff {part : Char → Token} (hrun : ∀ c, part c ≠ .run)
    (hone : ∀ c d, (part c).acceptsChar d = true ↔ d = c) (cs ds : List Char) :
    Pattern.accepts (cs.map part) ds = true ↔ ds = cs := by
  induction cs generalizing ds with
  | nil => simp [Pattern.accepts_nil]
  | cons c cs ih =>
    rw [List.map_cons]
    cases ds with
    | nil => simp [Pattern.accepts_one_nil _ (hrun c)]
    | cons d ds =>
      rw [Pattern.accepts_one_cons _ _ _ (hrun c), Bool.and_eq_true, hone, ih, List.cons.injEq]

/-- **A quoted text matches itself and nothing else.** -/
theorem accepts_quoted (cs ds : List Char) :
    Pattern.accepts (cs.map Token.only) ds = true ↔ ds = cs :=
  accepts_map_iff only_ne_run acceptsChar_only cs ds

/-! ### Texts without wildcards -/

/-- Whether a character stands for more than itself. -/
def isWild (c : Char) : Bool := c == '?' || c == '*' || c == '['

theorem parse_of_not_isWild {cs : List Char} (h : ∀ c ∈ cs, isWild c = false) (pos : Nat) :
    parse pos cs = .ok (cs.map .char) := by
  induction cs generalizing pos with
  | nil => simp [parse]
  | cons c cs ih =>
    obtain ⟨hc, hcs⟩ := List.forall_mem_cons.mp h
    simp only [isWild, Bool.or_eq_false_iff, beq_eq_false_iff_ne] at hc
    simp [parse, hc, ih hcs, Except.map]

/-- A text without wildcards is a pattern. -/
theorem ofText?_of_not_isWild {cs : List Char} (h : ∀ c ∈ cs, isWild c = false) :
    Pattern.ofText? cs = .ok (cs.map .char) :=
  parse_of_not_isWild h 0

/-- A text without wildcards matches itself and nothing else. -/
theorem accepts_chars (cs ds : List Char) :
    Pattern.accepts (cs.map .char) ds = true ↔ ds = cs := by
  have hrun : ∀ c, Token.char c ≠ .run := fun c => nofun
  exact accepts_map_iff hrun (fun _ _ => beq_iff_eq) cs ds

/-- A star alone matches everything. -/
theorem accepts_star (cs : List Char) : Pattern.accepts [.run] cs = true := by
  induction cs with
  | nil => rfl
  | cons c cs ih => rw [Pattern.accepts_run_cons, ih, Bool.or_true]

end Glob
end LintGate
