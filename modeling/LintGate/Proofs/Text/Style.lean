import LintGate.Text.Blank
import LintGate.Text.Style

/-!
# Text without its colours

A code starts with an escape character and an opening bracket, and ends with the first character
from `@` to `~`.  Without its codes a text in a style is the text itself, unless there are codes in
the text already.

## Main definitions

* `Text.withoutCodes` — a text without the codes in it.
* `Text.Sheds` — a text that is another one without its codes, whatever follows.

## Main results

* `Text.sheds_self`, `Text.Sheds.append` — texts in a row.
* `Text.sheds_paint` — a text in a style.
* `Text.isBlank_of_mem_paint` — a word in a style.
-/

namespace LintGate
namespace Text

/-! ### Codes -/

/-- The character that a code starts with. -/
def escape : Char := '\x1b'

/-- Whether a character ends a code. -/
def endsCode (c : Char) : Bool := '@' ≤ c && c ≤ '~'

/-- A text without the codes in it; `inCode` tells whether the text starts inside of one. -/
def dropCodes : (inCode : Bool) → List Char → List Char
  | _, [] => []
  | true, c :: cs => dropCodes (!endsCode c) cs
  | false, '\x1b' :: '[' :: cs => dropCodes true cs
  | false, c :: cs => c :: dropCodes false cs

/-- A text without the codes in it. -/
def withoutCodes (s : String) : String := String.ofList (dropCodes false s.toList)

theorem dropCodes_cons_of_ne {c : Char} (h : c ≠ escape) (cs : List Char) :
    dropCodes false (c :: cs) = c :: dropCodes false cs := by
  rw [dropCodes]
  exact fun cs hc => absurd hc h

theorem dropCodes_append_of_not_mem {cs : List Char} (h : escape ∉ cs) (rest : List Char) :
    dropCodes false (cs ++ rest) = cs ++ dropCodes false rest := by
  induction cs with
  | nil => rfl
  | cons c cs ih =>
    rw [List.mem_cons, not_or] at h
    rw [List.cons_append, dropCodes_cons_of_ne (Ne.symm h.1), ih h.2, List.cons_append]

theorem dropCodes_code (style : Style) (rest : List Char) :
    dropCodes false (style.code.toList ++ rest) = dropCodes false rest := by
  cases style <;> simp [Style.code, dropCodes, endsCode]

theorem dropCodes_resetCode (rest : List Char) :
    dropCodes false (resetCode.toList ++ rest) = dropCodes false rest := by
  simp [resetCode, dropCodes, endsCode]

/-- Without codes in it, a text is not changed inside of a style. -/
theorem restyle_of_not_mem {cs : List Char} (h : escape ∉ cs) (code : List Char) :
    restyle code cs = cs := by
  fun_induction restyle code cs with
  | case1 cs ih => exact absurd List.mem_cons_self h
  | case2 c cs _ ih => rw [ih fun hc => h (List.mem_cons_of_mem c hc)]
  | case3 => rfl

/-! ### Texts in a row -/

/-- A text is another one without its codes, whatever follows. -/
def Sheds (colored plain : String) : Prop :=
  ∀ rest, dropCodes false (colored.toList ++ rest) = plain.toList ++ dropCodes false rest

variable {colored colored' plain plain' : String}

theorem Sheds.withoutCodes_eq (h : Sheds colored plain) : withoutCodes colored = plain := by
  have hend := h []
  rw [List.append_nil] at hend
  rw [withoutCodes, hend, dropCodes, List.append_nil, String.ofList_toList]

theorem sheds_self {s : String} (h : escape ∉ s.toList) : Sheds s s :=
  dropCodes_append_of_not_mem h

theorem Sheds.append (h : Sheds colored plain) (h' : Sheds colored' plain') :
    Sheds (colored ++ colored') (plain ++ plain') := by
  intro rest
  rw [String.toList_append, String.toList_append, List.append_assoc, h, h', List.append_assoc]

/-- **A text in a style is the text itself without the codes.** -/
theorem sheds_paint {s : String} (h : escape ∉ s.toList) (style : Style) :
    Sheds (paint true style s) (paint false style s) := by
  intro rest
  rw [paint, if_pos rfl, restyle_of_not_mem h, String.ofList_toList, String.toList_append,
    String.toList_append, List.append_assoc, List.append_assoc, dropCodes_code,
    dropCodes_append_of_not_mem h, dropCodes_resetCode, paint_false]

/-! ### Words -/

theorem isBlank_of_mem_restyle {code cs : List Char} (hcode : ∀ c ∈ code, isBlank c = false)
    (hcs : ∀ c ∈ cs, isBlank c = false) : ∀ c ∈ restyle code cs, isBlank c = false := by
  fun_induction restyle code cs with
  | case1 cs ih =>
    have hrest := ih fun c hc => hcs c (by simp [hc])
    intro c hc
    simp only [List.mem_cons, List.mem_append] at hc
    rcases hc with rfl | rfl | rfl | rfl | hc | hc
    · decide
    · decide
    · decide
    · decide
    · exact hcode c hc
    · exact hrest c hc
  | case2 c cs _ ih =>
    rw [List.forall_mem_cons] at hcs ⊢
    exact ⟨hcs.1, ih hcs.2⟩
  | case3 => exact hcs

/-- A word stays one in any style. -/
theorem isBlank_of_mem_paint {word : String} (h : ∀ c ∈ word.toList, isBlank c = false)
    (colored : Bool) (style : Style) :
    ∀ c ∈ (paint colored style word).toList, isBlank c = false := by
  have hcode : ∀ c ∈ style.code.toList, isBlank c = false := by
    cases style <;> simp [Style.code, isBlank]
  have hreset : ∀ c ∈ resetCode.toList, isBlank c = false := by simp [resetCode, isBlank]
  cases colored with
  | false => exact h
  | true =>
    simp only [paint, if_pos, String.toList_append, String.toList_ofList, List.forall_mem_append]
    exact ⟨⟨hcode, isBlank_of_mem_restyle hcode h⟩, hreset⟩

end Text
end LintGate
