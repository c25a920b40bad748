import LintGate.CommandLine
import Mathlib.Algebra.Ring.Int.Defs
import Mathlib.Tactic.Lift

/-!
# The number of jobs

A number is written in decimal, with a sign or without, and with any number of zeros in front.

## Main definitions

* `CommandLine.Decimal` — the decimals and their values.
* `CommandLine.Signed64` — the decimals whose values fit a signed word of 64 bits.

## Main results

* `CommandLine.integer?_eq_some_iff` — a number is read of the decimals, and of these alone.
* `CommandLine.jobs?_eq_ok_iff`, `CommandLine.exists_jobs?_iff` — which texts are taken for a
  number of jobs.
-/

namespace LintGate
namespace CommandLine

/-- Digits, and at least one of them. -/
def IsDigits (ds : List Char) : Prop := ds ≠ [] ∧ ∀ d ∈ ds, d.isDigit = true

instance (ds : List Char) : Decidable (IsDigits ds) :=
  inferInstanceAs (Decidable (_ ∧ _))

/-- A decimal with its value: digits, with a sign in front or without. -/
inductive Decimal : List Char → Int → Prop
  | unsigned {ds : List Char} (h : IsDigits ds) : Decimal ds (Nat.ofDigitChars 10 ds 0 : Nat)
  | plus {ds : List Char} (h : IsDigits ds) : Decimal ('+' :: ds) (Nat.ofDigitChars 10 ds 0 : Nat)
  | minus {ds : List Char} (h : IsDigits ds) :
      Decimal ('-' :: ds) (-(Nat.ofDigitChars 10 ds 0 : Nat))

/-- A text is a decimal whose value fits a signed word of 64 bits. -/
def Signed64 (text : String) (z : Int) : Prop :=
  Decimal text.toList z ∧ -2 ^ 63 ≤ z ∧ z < 2 ^ 63

theorem isDigits_iff {ds : List Char} :
    (!ds.isEmpty && ds.all Char.isDigit) = true ↔ IsDigits ds := by
  simp [IsDigits]

/-- A sign is no digit. -/
theorem IsDigits.isDigit {c : Char} {ds : List Char} (h : IsDigits (c :: ds)) :
    c.isDigit = true :=
  h.2 c List.mem_cons_self

/-- Digits alone are read as the number that they write. -/
theorem number_eq_some_iff {ds : List Char} {z : Int} :
    ((if IsDigits ds then some (ds.foldl (fun (n : Nat) d => 10 * n + (d.toNat - 0x30)) 0)
      else none).bind fun n => some (n : Int)) = some z ↔
    IsDigits ds ∧ (Nat.ofDigitChars 10 ds 0 : Nat) = z := by
  by_cases h : IsDigits ds
  · rw [if_pos h, Option.bind_some, Option.some_inj]
    exact ⟨fun hz => ⟨h, hz⟩, And.right⟩
  · simp [h]

/-- A number is read of the decimals, and of these alone. -/
theorem integer?_eq_some_iff {cs : List Char} {z : Int} : integer? cs = some z ↔ Decimal cs z := by
  simp only [integer?, isDigits_iff, Option.bind_eq_bind, Option.pure_def]
  constructor
  · intro h
    split at h
    · obtain ⟨n, hn, rfl⟩ := Option.map_eq_some_iff.mp h
      obtain ⟨hdigits, rfl⟩ := number_eq_some_iff.mp hn
      exact .minus hdigits
    · obtain ⟨n, hn, rfl⟩ := Option.map_eq_some_iff.mp h
      obtain ⟨hdigits, rfl⟩ := number_eq_some_iff.mp hn
      exact .plus hdigits
    · obtain ⟨n, hn, rfl⟩ := Option.map_eq_some_iff.mp h
      obtain ⟨hdigits, rfl⟩ := number_eq_some_iff.mp hn
      exact .unsigned hdigits
  · intro h
    cases h with
    | minus hdigits =>
      exact Option.map_eq_some_iff.mpr ⟨_, number_eq_some_iff.mpr ⟨hdigits, rfl⟩, rfl⟩
    | plus hdigits =>
      exact Option.map_eq_some_iff.mpr ⟨_, number_eq_some_iff.mpr ⟨hdigits, rfl⟩, rfl⟩
    | unsigned hdigits =>
      split
      · exact absurd hdigits.isDigit (by decide)
      · exact absurd hdigits.isDigit (by decide)
      · exact Option.map_eq_some_iff.mpr ⟨_, number_eq_some_iff.mpr ⟨hdigits, rfl⟩, rfl⟩

/-- Which texts are taken for a number of jobs, and for which. -/
theorem jobs?_eq_ok_iff {text : String} {n : Nat} :
    jobs? text = .ok n ↔ Decimal text.toList n ∧ 1 ≤ n ∧ n ≤ 65535 := by
  rw [← integer?_eq_some_iff, jobs?]
  cases integer? text.toList with
  | none => simp
  | some z =>
    dsimp only
    split
    · next hrange =>
      simp only [Except.ok.injEq, Option.some_inj]
      omega
    · next hrange =>
      simp only [reduceCtorEq, Option.some_inj, false_iff]
      omega

/-- A text is taken for a number of jobs exactly if it is a decimal of 64 bits in the range. -/
theorem exists_jobs?_iff {text : String} :
    (∃ n, jobs? text = .ok n) ↔ ∃ z, Signed64 text z ∧ 1 ≤ z ∧ z ≤ 65535 := by
  simp only [jobs?_eq_ok_iff, Signed64]
  constructor
  · rintro ⟨n, h, hlow, hhigh⟩
    exact ⟨n, ⟨h, by omega, by omega⟩, by omega, by omega⟩
  · rintro ⟨z, ⟨h, -, -⟩, hlow, hhigh⟩
    lift z to Nat using by omega
    exact ⟨z, h, by omega, by omega⟩

/-- A decimal behind a dash is no number of jobs. -/
theorem not_jobs_of_dash {text : String} {cs : List Char} (h : text.toList = '-' :: cs) :
    ¬ ∃ n, jobs? text = .ok n := by
  rintro ⟨n, hn⟩
  obtain ⟨hdecimal, hlow, -⟩ := jobs?_eq_ok_iff.mp hn
  rw [h] at hdecimal
  generalize hz : (n : Int) = z at hdecimal
  cases hdecimal with
  | unsigned hdigits => exact absurd hdigits.isDigit (by decide)
  | minus hdigits => omega

/-- A sign, and a zero in front. -/
example : jobs? "+08" = .ok 8 := by rfl

end CommandLine
end LintGate
