import LintGate.Text.Lines

/-!
# Splitting at a separator, and joining again

## Main results

* `splitOn_append` — a text is split on either side of a separator.
* `splitOn_append_of_not_mem` — what follows without a separator joins the last piece.
* `splitOn_joinWith` — pieces without the separator are found again.
* `joinWith_append` — rows of pieces side by side.
-/

namespace LintGate
namespace Text

variable {sep : Char}

/-- The pieces on the two sides of a separator. -/
theorem splitOn_append (a b : List Char) :
    splitOn sep (a ++ sep :: b) = splitOn sep a ++ splitOn sep b := by
  induction a with
  | nil => simp [splitOn]
  | cons c a ih =>
    rw [List.cons_append, splitOn, splitOn, ih]
    split
    · rfl
    · cases hs : splitOn sep a with
      | nil => exact absurd hs (splitOn_ne_nil sep a)
      | cons p ps => rfl

theorem splitOn_of_not_mem {cs : List Char} (h : sep ∉ cs) : splitOn sep cs = [cs] := by
  induction cs with
  | nil => rfl
  | cons c cs ih =>
    rw [List.mem_cons, not_or] at h
    rw [splitOn, if_neg (Ne.symm h.1), ih h.2]

/-- No piece holds the separator. -/
theorem not_mem_of_mem_splitOn {cs p : List Char} (h : p ∈ splitOn sep cs) : sep ∉ p := by
  induction cs generalizing p with
  | nil => simp_all [splitOn]
  | cons c cs ih =>
    rw [splitOn] at h
    split at h
    · rcases List.mem_cons.mp h with rfl | h
      · exact List.not_mem_nil
      · exact ih h
    · next hc =>
      cases hs : splitOn sep cs with
      | nil => exact absurd hs (splitOn_ne_nil sep cs)
      | cons q qs =>
        rw [hs] at h ih
        rcases List.mem_cons.mp h with rfl | h
        · rw [List.mem_cons, not_or]
          exact ⟨Ne.symm hc, ih List.mem_cons_self⟩
        · exact ih (List.mem_cons_of_mem q h)

/-- What follows without a separator belongs to the last piece. -/
theorem splitOn_append_of_not_mem (a : List Char) {b : List Char} (hb : sep ∉ b) :
    ∃ ps p, splitOn sep a = ps ++ [p] ∧ splitOn sep (a ++ b) = ps ++ [p ++ b] := by
  induction a with
  | nil => exact ⟨[], [], rfl, splitOn_of_not_mem hb⟩
  | cons c a ih =>
    obtain ⟨ps, p, ha, hab⟩ := ih
    rw [List.cons_append, splitOn, splitOn, ha, hab]
    split
    · exact ⟨[] :: ps, p, rfl, rfl⟩
    · cases ps with
      | nil => exact ⟨[], c :: p, rfl, rfl⟩
      | cons q qs => exact ⟨(c :: q) :: qs, p, rfl, rfl⟩

theorem joinWith_cons {s p : List Char} {ps : List (List Char)} (h : ps ≠ []) :
    joinWith s (p :: ps) = p ++ s ++ joinWith s ps := by
  cases ps with
  | nil => exact absurd rfl h
  | cons q qs => rfl

theorem sublist_joinWith {s p : List Char} {ps : List (List Char)} (h : p ∈ ps) :
    p.Sublist (joinWith s ps) := by
  induction ps with
  | nil => exact absurd h List.not_mem_nil
  | cons q ps ih =>
    by_cases hps : ps = []
    · subst hps
      rw [List.mem_singleton.mp h]
      exact List.Sublist.refl _
    · rw [joinWith_cons hps]
      rcases List.mem_cons.mp h with rfl | h
      · exact (List.sublist_append_left p s).trans (List.sublist_append_left _ _)
      · exact (ih h).trans (List.sublist_append_right _ _)

/-- A text with a separator in it is longer than each of its pieces. -/
theorem length_lt_of_mem_splitOn {cs p : List Char} (h : p ∈ splitOn sep cs) (hsep : sep ∈ cs) :
    p.length < cs.length := by
  have hsub : p.Sublist cs := by
    rw [← joinWith_splitOn sep cs]
    exact sublist_joinWith h
  refine Nat.lt_of_le_of_ne hsub.length_le fun hlen => not_mem_of_mem_splitOn h ?_
  rwa [hsub.eq_of_length hlen]

/-- Pieces without the separator are found again. -/
theorem splitOn_joinWith {ps : List (List Char)} (hne : ps ≠ []) (h : ∀ p ∈ ps, sep ∉ p) :
    splitOn sep (joinWith [sep] ps) = ps := by
  induction ps with
  | nil => exact absurd rfl hne
  | cons p ps ih =>
    have hp := splitOn_of_not_mem (h p List.mem_cons_self)
    cases ps with
    | nil => exact hp
    | cons q qs =>
      rw [joinWith_cons_cons, List.append_assoc, List.singleton_append, splitOn_append, hp,
        ih (List.cons_ne_nil q qs) fun r hr => h r (List.mem_cons_of_mem p hr)]
      rfl

/-- Two rows of pieces side by side. -/
theorem joinWith_append {s : List Char} {as bs : List (List Char)} (ha : as ≠ []) (hb : bs ≠ []) :
    joinWith s (as ++ bs) = joinWith s as ++ s ++ joinWith s bs := by
  induction as with
  | nil => exact absurd rfl ha
  | cons a as ih =>
    cases as with
    | nil => rw [List.singleton_append, joinWith_cons hb, joinWith_singleton]
    | cons a' as =>
      have hne : a' :: as ++ bs ≠ [] := by simp
      rw [List.cons_append, joinWith_cons hne, ih (List.cons_ne_nil a' as), joinWith_cons_cons]
      simp [List.append_assoc]

/-- Pieces are told apart by their row, as long as none of them holds the separator. -/
theorem joinWith_inj {as bs : List (List Char)} (ha : as ≠ []) (hb : bs ≠ [])
    (ha' : ∀ p ∈ as, sep ∉ p) (hb' : ∀ p ∈ bs, sep ∉ p)
    (h : joinWith [sep] as = joinWith [sep] bs) : as = bs := by
  rw [← splitOn_joinWith ha ha', h, splitOn_joinWith hb hb']

end Text
end LintGate
