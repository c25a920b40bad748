import LintGate.Path

/-!
# Paths that start with dots, and paths seen from a directory

## Main definitions

* `Path.dots` — `./`, a number of times.

## Main results

* `Path.dropDots_append` — dots in front are dropped from what follows, too.
* `Path.dropDots_of_ne` — the paths without dots in front.
* `Path.exists_dots_append` — what is dropped.
* `Path.joinChars_inj`, `Path.joinChars_joinChars` — paths seen from a directory.
-/

namespace LintGate
namespace Path

theorem dropDots_suffix (cs : List Char) : dropDots cs <:+ cs := by
  fun_induction dropDots cs with
  | case1 cs ih => exact ih.trans ⟨['.', '/'], rfl⟩
  | case2 cs h => exact List.suffix_rfl

/-- No path starts with dots once they are dropped. -/
theorem dropDots_ne (cs rest : List Char) : dropDots cs ≠ '.' :: '/' :: rest := by
  fun_induction dropDots cs with
  | case1 cs ih => exact ih
  | case2 cs h => exact fun he => h rest he

theorem dropDots_of_ne {cs : List Char} (h : ∀ rest, cs ≠ '.' :: '/' :: rest) :
    dropDots cs = cs := by
  unfold dropDots
  split
  · next rest => exact absurd rfl (h rest)
  · rfl

/-- Dots in front are dropped first, whatever follows. -/
theorem dropDots_append (a b : List Char) : dropDots (a ++ b) = dropDots (dropDots a ++ b) := by
  fun_induction dropDots a with
  | case1 cs ih => rw [List.cons_append, List.cons_append, dropDots_dot, ih]
  | case2 cs h => rfl

/-- The dots in front of a path: `./`, a number of times. -/
def dots : Nat → List Char
  | 0 => []
  | n + 1 => '.' :: '/' :: dots n

@[simp] theorem dots_zero : dots 0 = [] := rfl

@[simp] theorem dots_succ (n : Nat) : dots (n + 1) = '.' :: '/' :: dots n := rfl

theorem dropDots_dots_append (n : Nat) (cs : List Char) :
    dropDots (dots n ++ cs) = dropDots cs := by
  induction n with
  | zero => rfl
  | succ n ih => rw [dots_succ, List.cons_append, List.cons_append, dropDots_dot, ih]

/-- What is dropped in front of a path. -/
theorem exists_dots_append (cs : List Char) : ∃ n, cs = dots n ++ dropDots cs := by
  fun_induction dropDots cs with
  | case1 cs ih =>
    obtain ⟨n, hn⟩ := ih
    exact ⟨n + 1, congrArg (fun x => '.' :: '/' :: x) hn⟩
  | case2 cs h => exact ⟨0, rfl⟩

/-- A path without a slash is not absolute. -/
theorem isAbsolute_of_not_mem {p : List Char} (h : '/' ∉ p) : isAbsolute p = false := by
  rw [isAbsolute, beq_eq_false_iff_ne]
  exact fun hhead => h (List.mem_of_mem_head? hhead)

/-- How a path that is not absolute is seen from a directory: a slash comes before it, unless
nothing does. -/
theorem exists_joinChars (base : List Char) :
    ∃ front, (front = [] ∨ ∃ above, front = above ++ ['/']) ∧
      ∀ p, isAbsolute p = false → joinChars base p = front ++ p := by
  by_cases hb : (base.isEmpty || base.getLast? == some '/') = true
  · refine ⟨base, ?_, fun p hp => ?_⟩
    · rw [Bool.or_eq_true, List.isEmpty_iff, beq_iff_eq] at hb
      exact hb.imp_right fun hlast => List.getLast?_eq_some_iff.mp hlast
    · rw [joinChars, hp, if_neg Bool.false_ne_true, if_pos hb]
  · refine ⟨base ++ ['/'], Or.inr ⟨base, rfl⟩, fun p hp => ?_⟩
    rw [joinChars, hp, if_neg Bool.false_ne_true, if_neg hb, List.append_assoc]
    rfl

/-- No path that is not longer is seen in the place of one that is not absolute. -/
theorem joinChars_inj {base p q : List Char} (hq : isAbsolute q = false)
    (hlen : p.length ≤ q.length) (h : joinChars base p = joinChars base q) : p = q := by
  obtain ⟨front, -, hfront⟩ := exists_joinChars base
  rw [hfront q hq] at h
  cases hp : isAbsolute p with
  | false =>
    rw [hfront p hp] at h
    exact List.append_cancel_left h
  | true =>
    -- An absolute path stands for itself, so there is no room for a directory.
    rw [joinChars, hp, if_pos rfl] at h
    have hnil : front = [] := by
      have := congrArg List.length h
      rw [List.length_append] at this
      exact List.eq_nil_of_length_eq_zero (by omega)
    rw [h, hnil, List.nil_append]

/-- A path below a path below a directory. -/
theorem joinChars_joinChars {base p q : List Char} (hp : isAbsolute p = false) (hne : p ≠ [])
    (hlast : p.getLast? ≠ some '/') (hq : isAbsolute q = false) :
    joinChars (joinChars base p) q = joinChars base (p ++ '/' :: q) := by
  have happend : isAbsolute (p ++ '/' :: q) = false := by
    obtain ⟨c, cs, rfl⟩ := List.exists_cons_of_ne_nil hne
    exact hp
  obtain ⟨front, -, hfront⟩ := exists_joinChars base
  rw [hfront p hp, hfront _ happend, joinChars, hq, if_neg Bool.false_ne_true, if_neg ?_,
    List.append_assoc]
  have hend : (front ++ p).getLast? = p.getLast? := by
    rw [List.getLast?_append, Option.or_of_isSome]
    exact List.getLast?_isSome.mpr hne
  rw [hend]
  simp [hne, hlast]

end Path
end LintGate
