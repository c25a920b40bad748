import Mathlib.Data.List.TakeWhile
import LintGate.Toml.Scalar

/-!
# Decimal numbers

Digits alone can be taken for nothing but a number: every other unquoted value has a letter or a
mark in it.

## Main results

* `Scalar.digits?_eq_some` — the digits of a text of digits.
* `Moment.isValid_of_isDigit` — digits are neither a date nor a time.
* `Scalar.ofText?_toDigits` — a number that is written in decimal is read again.
-/

namespace LintGate
namespace Toml

open Text

variable {cs : List Char}

theorem digit?_of_isDigit {c : Char} (h : c.isDigit = true) :
    digit? 10 c = some (c.toNat - '0'.toNat) := by
  have hval : 48 ≤ c.val ∧ c.val ≤ 57 := by simpa [Char.isDigit] using h
  have hrange : '0' ≤ c ∧ c ≤ '9' := hval
  have hlow : 48 ≤ c.toNat := hrange.1
  have hhigh : c.toNat ≤ 57 := hrange.2
  have hzero : '0'.toNat = 48 := rfl
  simp only [digit?, hrange, decide_true, Bool.and_self, if_true]
  rw [hzero, if_pos (by omega)]

theorem ne_of_isDigit {c d : Char} (h : c.isDigit = true) (hd : d.isDigit = false) : c ≠ d := by
  rintro rfl
  rw [h] at hd
  cases hd

theorem eq_zero_of_isDigit {c : Char} (h : c.isDigit = true) (hc : c.toNat - '0'.toNat = 0) :
    c = '0' := by
  have hval : 48 ≤ c.val ∧ c.val ≤ 57 := by simpa [Char.isDigit] using h
  have hlow : 48 ≤ c.toNat := hval.1
  have hzero : '0'.toNat = 48 := rfl
  refine Char.toNat_inj.mp ?_
  omega

namespace Scalar

/-- The digits of a text of digits. -/
theorem digits?_eq_some (hne : cs ≠ []) (h : ∀ c ∈ cs, c.isDigit = true) :
    digits? 10 cs = some (cs.map fun c => c.toNat - '0'.toNat) := by
  induction cs with
  | nil => exact absurd rfl hne
  | cons c cs ih =>
    have hc := digit?_of_isDigit (h c List.mem_cons_self)
    cases cs with
    | nil => simp [digits?, hc]
    | cons d ds =>
      have hd : d ≠ '_' := ne_of_isDigit (h d (by simp)) (by decide)
      have hds := ih (List.cons_ne_nil d ds) fun x hx => h x (List.mem_cons_of_mem c hx)
      rw [digits?.eq_4 10 c (d :: ds) (by simp) (by simp [hd]), hc, hds]
      rfl

theorem valueOf_map (cs : List Char) :
    valueOf 10 (cs.map fun c => c.toNat - '0'.toNat) = Nat.ofDigitChars 10 cs 0 := by
  rw [valueOf, List.foldl_map, Nat.ofDigitChars]
  simp only [Nat.mul_comm]

end Scalar

namespace Moment

theorem isDigit_of_twoDigits? {max n : Nat} {rest : List Char} (h : ∀ c ∈ cs, c.isDigit = true)
    (hr : twoDigits? max cs = some (n, rest)) : ∀ c ∈ rest, c.isDigit = true := by
  match cs with
  | [] | [_] => cases hr
  | a :: b :: cs =>
    simp only [twoDigits?, Option.bind_eq_some_iff] at hr
    obtain ⟨x, -, y, -, hr⟩ := hr
    split at hr
    · cases hr
      exact fun c hc => h c (List.mem_cons_of_mem a (List.mem_cons_of_mem b hc))
    · cases hr

theorem afterDate?_of_isDigit (h : ∀ c ∈ cs, c.isDigit = true) : afterDate? cs = none := by
  rw [afterDate?, Option.bind_eq_none_iff]
  rintro ⟨century, cs'⟩ hcentury
  rw [Option.bind_eq_none_iff]
  rintro ⟨rest, cs''⟩ hrest
  have hdigits := isDigit_of_twoDigits? (isDigit_of_twoDigits? h hcentury) hrest
  dsimp only
  split
  · exact absurd (hdigits '-' List.mem_cons_self) (by decide)
  · rfl

theorem afterTime?_of_isDigit (h : ∀ c ∈ cs, c.isDigit = true) : afterTime? cs = none := by
  rw [afterTime?, Option.bind_eq_none_iff]
  rintro ⟨hour, cs'⟩ hhour
  have hdigits := isDigit_of_twoDigits? h hhour
  dsimp only
  split
  · exact absurd (hdigits ':' List.mem_cons_self) (by decide)
  · rfl

/-- Digits are neither a date nor a time. -/
theorem isValid_of_isDigit (h : ∀ c ∈ cs, c.isDigit = true) : isValid cs = false := by
  rw [isValid, afterDate?_of_isDigit h, afterTime?_of_isDigit h]
  rfl

end Moment

namespace Scalar

/-- Digits are a number, unless there is a zero in front of others. -/
theorem ofText?_of_isDigit (hne : cs ≠ []) (h : ∀ c ∈ cs, c.isDigit = true)
    (hzero : cs.length > 1 → cs.head? ≠ some '0') :
    ofText? cs = some (.integer (Nat.ofDigitChars 10 cs 0)) := by
  have hne_of_mem : ∀ {word : List Char} {c : Char}, c ∈ word → c.isDigit = false → cs ≠ word := by
    rintro word c hmem hc rfl
    exact absurd (h c hmem) (by rw [hc]; decide)
  have hunsigned : unsigned cs = (false, cs) := by
    unfold unsigned
    split
    · exact absurd rfl (hne_of_mem (c := '-') List.mem_cons_self (by decide))
    · exact absurd rfl (hne_of_mem (c := '+') List.mem_cons_self (by decide))
    · rfl
  have hradix : radix? cs = none := by
    unfold radix?
    split
    · exact absurd rfl (hne_of_mem (c := 'x') (by simp) (by decide))
    · exact absurd rfl (hne_of_mem (c := 'o') (by simp) (by decide))
    · exact absurd rfl (hne_of_mem (c := 'b') (by simp) (by decide))
    · rfl
  have hwhole : wholeDigits? false cs = some (cs.map fun c => c.toNat - '0'.toNat) := by
    unfold wholeDigits?
    split
    · exact absurd rfl (hne_of_mem (c := '_') List.mem_cons_self (by decide))
    · rw [digits?_eq_some hne h, Option.bind_some, if_neg]
      simp only [Bool.and_eq_true, decide_eq_true_eq, List.length_map, beq_iff_eq, not_and]
      intro hlen hhead
      obtain ⟨c, cs, rfl⟩ := List.exists_cons_of_ne_nil hne
      refine hzero hlen (congrArg some ?_)
      exact eq_zero_of_isDigit (h c List.mem_cons_self) (Option.some.inj hhead)
  have hnumber : number? cs = some (.integer (Nat.ofDigitChars 10 cs 0)) := by
    have hpower : ∀ c ∈ cs, (!isPowerMark c) = true := fun c hc => by
      simp [isPowerMark, ne_of_isDigit (h c hc) (d := 'e') (by decide),
        ne_of_isDigit (h c hc) (d := 'E') (by decide)]
    have hpoint : ∀ c ∈ cs, decide (c ≠ '.') = true := fun c hc => by
      simp [ne_of_isDigit (h c hc) (d := '.') (by decide)]
    have hsigned : decide (cs.length < cs.length) = false := by simp
    simp only [number?, hunsigned, List.takeWhile_eq_self_iff.mpr hpower,
      List.dropWhile_eq_nil_iff.mpr hpower, List.takeWhile_eq_self_iff.mpr hpoint,
      List.dropWhile_eq_nil_iff.mpr hpoint, hsigned, hwhole, valueOf_map, signed]
    rfl
  have htrue : cs ≠ "true".toList := hne_of_mem (c := 't') (by simp) (by decide)
  have hfalse : cs ≠ "false".toList := hne_of_mem (c := 'f') (by simp) (by decide)
  have hinf : cs ≠ "inf".toList := hne_of_mem (c := 'i') (by simp) (by decide)
  have hnan : cs ≠ "nan".toList := hne_of_mem (c := 'n') (by simp) (by decide)
  rw [ofText?, if_neg htrue, if_neg hfalse, hunsigned, if_neg (by simp only [hinf, hnan]; decide),
    if_neg (by rw [Moment.isValid_of_isDigit h]; decide), hradix, hnumber]
  rfl

theorem head?_toDigits {n : Nat} (h : 0 < n) : (Nat.toDigits 10 n).head? ≠ some '0' := by
  induction n using Nat.strongRecOn with
  | ind n ih =>
    rcases Nat.lt_or_ge n 10 with hlt | hge
    · rw [Nat.toDigits_of_lt_base hlt, List.head?_cons, Ne, Option.some_inj,
        Nat.digitChar_eq_zero]
      omega
    · obtain ⟨d, ds, hds⟩ := List.exists_cons_of_ne_nil (Nat.toDigits_ne_nil (n := n / 10) (b := 10))
      have hhead := ih (n / 10) (by omega) (by omega)
      rw [hds] at hhead
      rw [Nat.toDigits_of_base_le (by decide) hge, hds]
      exact hhead

/-- **A number that is written in decimal is read again.** -/
theorem ofText?_toDigits (n : Nat) : ofText? (Nat.toDigits 10 n) = some (.integer n) := by
  have hdigits : ∀ c ∈ Nat.toDigits 10 n, c.isDigit = true := fun c hc =>
    Nat.isDigit_of_mem_toDigits (by decide) (by decide) hc
  rw [ofText?_of_isDigit Nat.toDigits_ne_nil hdigits, Nat.ofDigitChars_toDigits (by decide)
    (by decide)]
  intro hlen
  refine head?_toDigits (Nat.pos_of_ne_zero ?_)
  rintro rfl
  exact absurd hlen (by decide)

end Scalar
end Toml
end LintGate
