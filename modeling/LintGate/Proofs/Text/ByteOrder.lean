import Mathlib.Data.List.Basic
import Mathlib.Tactic.SplitIfs
import LintGate.Text.Ordered
import LintGate.Text.Utf8

/-!
# The order of texts is the order of their bytes

Texts are kept in the order of their code points.  A command that knows nothing of
characters compares bytes; in UTF-8 it comes to the same order.

## Main results

* `encode_lt_iff` — texts are ordered as their bytes are.
* `lf_mem_encodeChar_iff` — a line feed is found in the bytes of no other character.
-/

namespace LintGate
namespace Text

/-! ### Bytes that are given by numbers -/

theorem byte_cons_lt {a b : Nat} {x y : Bytes} (hb : b < 256) (h : a < b) :
    a.toUInt8 :: x < b.toUInt8 :: y :=
  List.cons_lt_cons_iff.mpr (Or.inl ((UInt8.ofNat_lt_iff_lt (Nat.lt_trans h hb) hb).mpr h))

theorem byte_cons_lt_of_le {a b : Nat} {x y : Bytes} (hb : b < 256) (h : a ≤ b)
    (hxy : a = b → x < y) : a.toUInt8 :: x < b.toUInt8 :: y := by
  rcases Nat.lt_or_eq_of_le h with hlt | rfl
  · exact byte_cons_lt hb hlt
  · exact List.cons_lt_cons_iff.mpr (Or.inr ⟨rfl, hxy rfl⟩)

/-! ### Characters -/

theorem toNat_lt (c : Char) : c.toNat < 0x110000 := by
  rcases c.valid with h | h
  · exact Nat.lt_trans h (by decide)
  · exact h.2

/-- The bytes of an earlier character come first, whatever follows the two. -/
theorem encodeChar_append_lt {c d : Char} (h : c < d) (x y : Bytes) :
    encodeChar c ++ x < encodeChar d ++ y := by
  have hcd : c.toNat < d.toNat := h
  have hd := toNat_lt d
  unfold encodeChar
  dsimp only
  generalize c.toNat = n, d.toNat = m at hcd hd
  -- Of two forms of one length the bytes are the digits of the code points; a longer form
  -- starts with a greater byte and belongs to the later character.
  split_ifs <;> try omega
  · exact byte_cons_lt (by omega) hcd
  · exact byte_cons_lt (by omega) (by omega)
  · exact byte_cons_lt (by omega) (by omega)
  · exact byte_cons_lt (by omega) (by omega)
  · refine byte_cons_lt_of_le (by omega) (by omega) fun h1 => ?_
    exact byte_cons_lt (by omega) (by omega)
  · exact byte_cons_lt (by omega) (by omega)
  · exact byte_cons_lt (by omega) (by omega)
  · refine byte_cons_lt_of_le (by omega) (by omega) fun h1 => ?_
    refine byte_cons_lt_of_le (by omega) (by omega) fun h2 => ?_
    exact byte_cons_lt (by omega) (by omega)
  · exact byte_cons_lt (by omega) (by omega)
  · refine byte_cons_lt_of_le (by omega) (by omega) fun h1 => ?_
    refine byte_cons_lt_of_le (by omega) (by omega) fun h2 => ?_
    refine byte_cons_lt_of_le (by omega) (by omega) fun h3 => ?_
    exact byte_cons_lt (by omega) (by omega)

theorem encodeChar_ne_nil (c : Char) : encodeChar c ≠ [] := by
  unfold encodeChar
  dsimp only
  split_ifs <;> exact List.cons_ne_nil _ _

/-- A line feed is found in the bytes of no other character. -/
theorem lf_mem_encodeChar_iff {c : Char} : 10 ∈ encodeChar c ↔ c = '\n' := by
  have hbyte : ∀ {n : Nat}, n < 256 → ((10 : UInt8) = n.toUInt8 ↔ n = 10) := fun {n} hn => by
    have hn' : n.toUInt8.toNat = n := Nat.mod_eq_of_lt hn
    rw [eq_comm, ← UInt8.toNat_inj, hn']
    rfl
  have hlf : c = '\n' ↔ c.toNat = 10 := by
    rw [← Char.toNat_inj]
    rfl
  have hc := toNat_lt c
  rw [hlf]
  unfold encodeChar
  dsimp only
  split_ifs <;> simp only [List.mem_cons, List.not_mem_nil, or_false] <;>
    repeat rw [hbyte (by omega)]
  all_goals omega

/-! ### Texts -/

/-- The bytes of an earlier text come first. -/
theorem encode_lt_of_lt {cs ds : List Char} (h : cs < ds) : encode cs < encode ds := by
  induction cs generalizing ds with
  | nil =>
    cases ds with
    | nil => exact absurd h (List.lt_irrefl [])
    | cons d ds =>
      obtain ⟨b, bs, hd⟩ := List.exists_cons_of_ne_nil (encodeChar_ne_nil d)
      rw [encode_cons, hd]
      exact List.nil_lt_cons b _
  | cons c cs ih =>
    cases ds with
    | nil => exact absurd h (List.not_lt_nil _)
    | cons d ds =>
      rw [encode_cons, encode_cons]
      rcases List.cons_lt_cons_iff.mp h with hcd | ⟨rfl, hrest⟩
      · exact encodeChar_append_lt hcd _ _
      · exact List.append_left_lt (ih hrest)

/-- **Texts are ordered as their bytes are.** -/
theorem encode_lt_iff {cs ds : List Char} : encode cs < encode ds ↔ cs < ds := by
  refine ⟨fun h => ?_, encode_lt_of_lt⟩
  by_contra hn
  by_cases hlt : ds < cs
  · exact List.lt_irrefl _ (List.lt_trans h (encode_lt_of_lt hlt))
  · obtain rfl : cs = ds := List.le_antisymm (List.not_lt.mp hlt) (List.not_lt.mp hn)
    exact List.lt_irrefl _ h

end Text
end LintGate
