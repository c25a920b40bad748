import LintGate.Toml.Token

/-!
# The tokens of a text that was written

Reading a text leads from one state of the automaton to another.  A word, a run of blanks and a
string show their end only by what stands behind them.  So it is said of each of them what comes
of a text that goes on.

## Main definitions

* `spelled`, `quoted` — a text as a string between double quotes.
* `Lexer.scan` — the tokens of a text, and where the automaton is then.
* `Lexer.IsWord` — a text that is one atom.

## Main results

* `Lexer.run_append` — the tokens of a text that goes on.
* `Lexer.scan_word`, `Lexer.scan_space`, `Lexer.scan_mark`, `Lexer.scan_quoted` — the token that
  a text starts with.
-/

namespace LintGate
namespace Toml

/-! ### Writing strings -/

/-- A character that is written by its code. -/
def isControl (c : Char) : Bool := c.toNat < 0x20 || (0x7F ≤ c.toNat && c.toNat < 0xA0)

/-- A character of a string between double quotes: the quote and the backslash stand behind a
backslash, and control characters are told by their codes. -/
def spelled (c : Char) : List Char :=
  if c = '"' ∨ c = '\\' then ['\\', c]
  else if isControl c then
    ['\\', 'u', '0', '0', Text.hexDigit (c.toNat / 16), Text.hexDigit (c.toNat % 16)]
  else [c]

/-- A text as a string between double quotes. -/
def quoted (cs : List Char) : List Char := '"' :: (cs.flatMap spelled ++ ['"'])

namespace Lexer

variable {l m : Lexer} {c : Char} {cs rest : List Char} {t : Token} {ts : List Token}

/-! ### From one state to another -/

/-- Puts tokens in front of those of a text. -/
def prefixed (ts : List Token) (r : List Token × Lexer) : List Token × Lexer := (ts ++ r.1, r.2)

/-- The tokens of a text that ends while the automaton goes on, and where it is then. -/
def scan : Lexer → List Char → Option (List Token × Lexer)
  | l, [] => some ([], l)
  | l, c :: cs => (l.step c).bind fun r => (scan r.2 cs).map (prefixed r.1)

theorem prefixed_nil : prefixed [] = id := rfl

theorem prefixed_comp (ts us : List Token) :
    prefixed ts ∘ prefixed us = prefixed (ts ++ us) := by
  funext r
  simp [prefixed]

theorem scan_cons_of_step (h : l.step c = some (ts, m)) :
    scan l (c :: cs) = (scan m cs).map (prefixed ts) := by
  rw [scan, h, Option.bind_some]

/-- A step that finishes no token. -/
theorem scan_cons_of_silent (h : l.step c = some ([], m)) : scan l (c :: cs) = scan m cs := by
  rw [scan_cons_of_step h, prefixed_nil, Option.map_id_fun, id]

/-- A step that finishes a token and reads its character between tokens. -/
theorem scan_cons_of_after (h : l.step c = some (after t (stepReady c))) :
    scan l (c :: cs) = (scan .ready (c :: cs)).map (prefixed [t]) := by
  have hready : step .ready c = some ((stepReady c).1, (stepReady c).2) := rfl
  rw [scan_cons_of_step h, scan_cons_of_step hready, Option.map_map, prefixed_comp]
  rfl

/-- The tokens of a text that goes on. -/
theorem run_append (l : Lexer) (cs more : List Char) :
    run l (cs ++ more) = (scan l cs).bind fun r => (run r.2 more).map (r.1 ++ ·) := by
  induction cs generalizing l with
  | nil => simp [scan]
  | cons c cs ih =>
    rw [List.cons_append, run, scan]
    cases l.step c with
    | none => rfl
    | some r =>
      rw [Option.bind_some]
      dsimp only
      rw [ih]
      cases scan r.2 cs with
      | none => rfl
      | some r' => simp [prefixed, Function.comp_def]

/-! ### Marks, blanks and words -/

theorem scan_mark (h : punctuation? c = some t) :
    scan .ready (c :: cs) = (scan .ready cs).map (prefixed [t]) := by
  refine scan_cons_of_step ?_
  rw [step, stepReady, h]

theorem scan_newline (cs : List Char) :
    scan .ready ('\n' :: cs) = (scan .ready cs).map (prefixed [.newline]) :=
  scan_cons_of_step rfl

theorem scan_space (h : isLineBlank c = false) :
    scan .ready (' ' :: c :: cs) = (scan .ready (c :: cs)).map (prefixed [.blank [' ']]) := by
  rw [scan_cons_of_silent (m := .blank [' ']) rfl, scan_cons_of_after (t := .blank [' '])]
  rw [step, h, if_neg Bool.false_ne_true]
  rfl

/-- A text that is one atom. -/
structure IsWord (w : List Char) : Prop where
  ne_nil : w ≠ []
  endsAtom_eq : ∀ c ∈ w, endsAtom c = false

/-- In a word, up to the character that ends it. -/
theorem scan_atom {w : List Char} (hw : ∀ x ∈ w, endsAtom x = false) (hc : endsAtom c = true)
    (read : List Char) : scan (.atom read) (w ++ c :: cs) =
      (scan .ready (c :: cs)).map (prefixed [.atom (read.reverse ++ w)]) := by
  induction w generalizing read with
  | nil =>
    rw [List.nil_append, List.append_nil, scan_cons_of_after]
    rw [step, if_pos hc]
  | cons x w ih =>
    have hstep : step (.atom read) x = some ([], .atom (x :: read)) := by
      rw [step, hw x List.mem_cons_self, if_neg Bool.false_ne_true]
    rw [List.cons_append, scan_cons_of_silent hstep,
      ih (fun y hy => hw y (List.mem_cons_of_mem x hy)), List.reverse_cons, List.append_assoc,
      List.singleton_append]

/-- A word is read as one token. -/
theorem scan_word {w : List Char} (hw : IsWord w) (hc : endsAtom c = true) :
    scan .ready (w ++ c :: cs) = (scan .ready (c :: cs)).map (prefixed [.atom w]) := by
  obtain ⟨x, w, rfl⟩ := List.exists_cons_of_ne_nil hw.ne_nil
  have hx := hw.endsAtom_eq x List.mem_cons_self
  have hstep : step .ready x = some ([], .atom [x]) := by
    simp only [endsAtom, Bool.or_eq_false_iff, decide_eq_false_iff_not] at hx
    simp_all [step, stepReady]
  rw [List.cons_append, scan_cons_of_silent hstep,
    scan_atom (fun y hy => hw.endsAtom_eq y (List.mem_cons_of_mem x hy)) hc]
  rfl

/-! ### Strings -/

/-- What a character is written as does not look like the end of the string. -/
theorem exists_spelled_eq (c : Char) : ∃ d ds, spelled c = d :: ds ∧ d ≠ '"' := by
  unfold spelled
  split
  · exact ⟨'\\', _, rfl, by decide⟩
  · next h =>
    split
    · exact ⟨'\\', _, rfl, by decide⟩
    · exact ⟨c, [], rfl, fun he => h (Or.inl he)⟩

/-- A character is read from what it is written as. -/
theorem scan_spelled (read : List Char) (c : Char) (rest : List Char) :
    scan (.inside .basic true read) (spelled c ++ rest) =
      scan (.inside .basic true (c :: read)) rest := by
  unfold spelled
  split
  · next h =>
    rcases h with rfl | rfl
    · exact (scan_cons_of_silent rfl).trans (scan_cons_of_silent rfl)
    · exact (scan_cons_of_silent rfl).trans (scan_cons_of_silent rfl)
  · next h =>
    rw [not_or] at h
    split
    · next hcontrol =>
      have hlow : c.toNat < 0xA0 := by
        simp only [isControl, Bool.or_eq_true, Bool.and_eq_true, decide_eq_true_eq] at hcontrol
        omega
      have hhigh : Text.digit? 16 (Text.hexDigit (c.toNat / 16)) = some (c.toNat / 16) :=
        Text.digit?_hexDigit (by omega)
      have hunit : Text.digit? 16 (Text.hexDigit (c.toNat % 16)) = some (c.toNat % 16) :=
        Text.digit?_hexDigit (Nat.mod_lt _ (by decide))
      have hchar : charOf? (c.toNat / 16 * 16 + c.toNat % 16) = some c := by
        rw [Nat.div_add_mod', charOf?, if_pos (Or.inl (by omega)), Char.ofNat_toNat]
      have hzero : Text.digit? 16 '0' = some 0 := by decide
      -- the backslash, the mark of a code, and its four digits
      refine (scan_cons_of_silent rfl).trans ?_
      refine (scan_cons_of_silent rfl).trans ?_
      refine (scan_cons_of_silent (m := .code true 2 0 read) ?_).trans ?_
      · simp [step, stepCode, hzero]
      refine (scan_cons_of_silent (m := .code true 1 0 read) ?_).trans ?_
      · simp [step, stepCode, hzero]
      refine (scan_cons_of_silent (m := .code true 0 (c.toNat / 16) read) ?_).trans ?_
      · simp [step, stepCode, hhigh]
      refine scan_cons_of_silent ?_
      simp [step, stepCode, hunit, hchar]
    · next hplain =>
      have hplain' : isPlain c = true := by
        simp only [isControl, Bool.or_eq_true, Bool.and_eq_true, decide_eq_true_eq] at hplain
        simp only [isPlain, Bool.or_eq_true, Bool.and_eq_true, decide_eq_true_eq]
        omega
      refine scan_cons_of_silent ?_
      simp [step, stepInside, Quoting.mark, h.1, h.2, hplain']

theorem scan_string (read cs rest : List Char) :
    scan (.inside .basic true read) (cs.flatMap spelled ++ '"' :: rest) =
      (scan .ready rest).map (prefixed [.text true (read.reverse ++ cs)]) := by
  induction cs generalizing read with
  | nil =>
    rw [List.append_nil]
    exact scan_cons_of_step rfl
  | cons c cs ih =>
    rw [List.flatMap_cons, List.append_assoc, scan_spelled, ih, List.reverse_cons,
      List.append_assoc, List.singleton_append]

/-- A string is read as one token, unless a further quote makes it look like one between three
quotes. -/
theorem scan_quoted (cs : List Char) {c : Char} (hc : c ≠ '"') (rest : List Char) :
    scan .ready (quoted cs ++ c :: rest) =
      (scan .ready (c :: rest)).map (prefixed [.text true cs]) := by
  rw [quoted, List.cons_append, List.append_assoc, List.singleton_append,
    scan_cons_of_silent (m := .quote .basic) rfl]
  cases cs with
  | nil =>
    refine (scan_cons_of_silent (m := .quotes .basic) rfl).trans (scan_cons_of_after ?_)
    exact if_neg hc
  | cons d cs =>
    obtain ⟨x, xs, hspelled, hx⟩ := exists_spelled_eq d
    -- the first character is read as in the string
    have hopen : scan (.quote .basic) (((d :: cs).flatMap spelled) ++ '"' :: c :: rest) =
        scan (.inside .basic true []) (((d :: cs).flatMap spelled) ++ '"' :: c :: rest) := by
      have hstep : step (.quote .basic) x = step (.inside .basic true []) x := if_neg hx
      rw [List.flatMap_cons, hspelled, List.cons_append, List.cons_append, scan, scan, hstep]
    rw [hopen, scan_string]
    rfl

end Lexer
end Toml
end LintGate
