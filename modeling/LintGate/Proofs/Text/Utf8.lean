import LintGate.Proofs.Text.ByteOrder
import Mathlib.Tactic.IntervalCases

/-!
# A text is read from its bytes

## Main results

* `decode?_encode` — reading the UTF-8 form of a text gives the text.
-/

namespace LintGate

/-- Every item of a list is read from what it is written as. -/
theorem mapM_map_eq_some {α β : Type} {f : α → β} {g : β → Option α}
    (h : ∀ a, g (f a) = some a) (as : List α) : (as.map f).mapM g = some as := by
  induction as with
  | nil => rfl
  | cons a as ih => simp [h, ih]

namespace Text

/-! ### Single bytes -/

theorem toNat_byte {n : Nat} (h : n < 256) : n.toUInt8.toNat = n := Nat.mod_eq_of_lt h

namespace Utf8

variable {bits d : Nat} {low high : UInt8}

theorem isBetween (hd : d < 64) (hlow : low.toNat ≤ 0x80 + d) (hhigh : 0x80 + d ≤ high.toNat) :
    (low ≤ (0x80 + d).toUInt8 && (0x80 + d).toUInt8 ≤ high) = true := by
  rw [Bool.and_eq_true, decide_eq_true_eq, decide_eq_true_eq, UInt8.le_iff_toNat_le,
    UInt8.le_iff_toNat_le, toNat_byte (by omega)]
  exact ⟨hlow, hhigh⟩

/-- A byte between the first and the last one. -/
theorem scan_next (more : Nat) (hd : d < 64) (hlow : low.toNat ≤ 0x80 + d)
    (hhigh : 0x80 + d ≤ high.toNat) (bs : Bytes) :
    scan (.next (more + 1) bits low high) ((0x80 + d).toUInt8 :: bs) =
      scan (.next more (bits * 64 + d) 0x80 0xBF) bs := by
  rw [scan, step, if_pos (isBetween hd hlow hhigh), toNat_byte (by omega), Nat.add_sub_cancel_left]
  rfl

theorem tail_le (hd : d < 64) : 0x80 + d ≤ (0xBF : UInt8).toNat := by
  change 0x80 + d ≤ 0xBF
  omega

/-- The last byte of a character. -/
theorem scan_last (hd : d < 64) (bs : Bytes) :
    scan (.next 0 bits 0x80 0xBF) ((0x80 + d).toUInt8 :: bs) =
      some (Char.ofNat (bits * 64 + d)) :: scan .first bs := by
  rw [scan, step, if_pos (isBetween hd (Nat.le_add_right _ d) (tail_le hd)),
    toNat_byte (by omega), Nat.add_sub_cancel_left]
  rfl

/-- The first bytes of characters of two, three and four bytes. -/
theorem start_two {k : Nat} (h : 2 ≤ k) (hk : k < 32) :
    start (0xC0 + k).toUInt8 = ([], .next 0 k 0x80 0xBF) := by
  interval_cases k <;> rfl

theorem start_three {k : Nat} (hk : k < 16) :
    start (0xE0 + k).toUInt8 =
      ([], .next 1 k (if k = 0 then 0xA0 else 0x80) (if k = 0xD then 0x9F else 0xBF)) := by
  interval_cases k <;> rfl

theorem start_four {k : Nat} (hk : k < 5) :
    start (0xF0 + k).toUInt8 =
      ([], .next 2 k (if k = 0 then 0x90 else 0x80) (if k = 4 then 0x8F else 0xBF)) := by
  interval_cases k <;> rfl

/-- A first byte with others behind it. -/
theorem scan_first {b : UInt8} {more : Nat} (h : start b = ([], .next more bits low high))
    (bs : Bytes) : scan .first (b :: bs) = scan (.next more bits low high) bs := by
  rw [scan, step, h]
  rfl

/-- A character is read from its bytes. -/
theorem scan_encodeChar (c : Char) (bs : Bytes) :
    scan .first (encodeChar c ++ bs) = some c :: scan .first bs := by
  have hlt := toNat_lt c
  have hvalid : c.toNat < 0xD800 ∨ 0xDFFF < c.toNat := by
    rcases c.valid with h | h
    · exact Or.inl h
    · exact Or.inr h.1
  have hchar : Char.ofNat c.toNat = c := Char.ofNat_toNat c
  unfold encodeChar
  dsimp only
  generalize c.toNat = n at hlt hvalid hchar
  -- The bits of the bytes are the digits of the code point, and the bounds on the second byte
  -- are kept: the form is the shortest, and the code point is no surrogate.
  split_ifs with h1 h2 h3
  · rw [List.singleton_append, scan, step, start, toNat_byte (by omega), if_pos h1, hchar]
    rfl
  · rw [List.cons_append, List.singleton_append, scan_first (start_two (by omega) (by omega)),
      scan_last (Nat.mod_lt n (by decide)), Nat.div_add_mod', hchar]
  · have hsecond : n / 0x40 % 0x40 < 64 := Nat.mod_lt _ (by decide)
    have hlow : (if n / 0x1000 = 0 then (0xA0 : UInt8) else 0x80).toNat ≤
        0x80 + n / 0x40 % 0x40 := by
      split_ifs
      · change 0xA0 ≤ 0x80 + n / 0x40 % 0x40
        omega
      · exact Nat.le_add_right _ _
    have hhigh : 0x80 + n / 0x40 % 0x40 ≤
        (if n / 0x1000 = 0xD then (0x9F : UInt8) else 0xBF).toNat := by
      split_ifs
      · change 0x80 + n / 0x40 % 0x40 ≤ 0x9F
        omega
      · exact tail_le hsecond
    have hbits : (n / 0x1000 * 64 + n / 0x40 % 0x40) * 64 + n % 0x40 = n := by omega
    rw [List.cons_append, List.cons_append, List.singleton_append,
      scan_first (start_three (by omega)), scan_next 0 hsecond hlow hhigh,
      scan_last (Nat.mod_lt n (by decide)), hbits, hchar]
  · have hsecond : n / 0x1000 % 0x40 < 64 := Nat.mod_lt _ (by decide)
    have hthird : n / 0x40 % 0x40 < 64 := Nat.mod_lt _ (by decide)
    have hlow : (if n / 0x40000 = 0 then (0x90 : UInt8) else 0x80).toNat ≤
        0x80 + n / 0x1000 % 0x40 := by
      split_ifs
      · change 0x90 ≤ 0x80 + n / 0x1000 % 0x40
        omega
      · exact Nat.le_add_right _ _
    have hhigh : 0x80 + n / 0x1000 % 0x40 ≤
        (if n / 0x40000 = 4 then (0x8F : UInt8) else 0xBF).toNat := by
      split_ifs
      · change 0x80 + n / 0x1000 % 0x40 ≤ 0x8F
        omega
      · exact tail_le hsecond
    have hbits : ((n / 0x40000 * 64 + n / 0x1000 % 0x40) * 64 + n / 0x40 % 0x40) * 64 + n % 0x40 =
        n := by omega
    rw [List.cons_append, List.cons_append, List.cons_append, List.singleton_append,
      scan_first (start_four (by omega)), scan_next 1 hsecond hlow hhigh,
      scan_next 0 hthird (Nat.le_add_right _ _) (tail_le hthird),
      scan_last (Nat.mod_lt n (by decide)), hbits, hchar]

end Utf8

/-- **Reading the UTF-8 form of a text** gives the text. -/
theorem decode?_encode (cs : List Char) : decode? (encode cs) = some cs := by
  have hscan : Utf8.scan .first (encode cs) = cs.map some := by
    induction cs with
    | nil => rfl
    | cons c cs ih => rw [encode_cons, Utf8.scan_encodeChar, ih, List.map_cons]
  rw [decode?, hscan]
  exact mapM_map_eq_some (f := some) (fun _ => rfl) cs

end Text
end LintGate
