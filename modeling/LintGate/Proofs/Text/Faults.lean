import LintGate.Proofs.Text.Blank
import LintGate.Proofs.Text.Utf8

/-!
# Bytes that are no text

The reader takes bytes for a text exactly if they are its UTF-8 form.  Whatever else it is given,
it finds a fault, and the lenient reader leaves a mark for it, which is no blank.  So bytes are read
as blanks only if they are the form of blanks.

## Main definitions

* `Utf8.tail` — the last bytes of a code point.
* `Utf8.Leads` — the bytes that lead to a state of the reader.

## Main results

* `Utf8.encode_of_scan` — what is read without a fault was written as it stands.
* `replacement_mem_decodeLossy` — bytes that are the form of no text leave a mark.
* `isAllBlank_decodeLossy_iff` — **bytes that are read as blanks** are the form of blanks.
-/

namespace LintGate
namespace Text
namespace Utf8

/-! ### The bytes of a code point -/

/-- The last bytes of a code point, with six of its bits each. -/
def tail : Nat → Nat → Bytes
  | 0, _ => []
  | m + 1, n => (0x80 + n / 64 ^ m % 64).toUInt8 :: tail m n

/-- The bytes that lead to a state of the reader: every code point that begins with the bits so
far, and goes on within the bounds, is a character whose form begins with these bytes. -/
def Leads (front : Bytes) : Expect → Prop
  | .first => front = []
  | .next more bits low high =>
    0x80 ≤ low.toNat ∧ high.toNat ≤ 0xBF ∧ ∀ n, n / 64 ^ (more + 1) = bits →
      low.toNat ≤ 0x80 + n / 64 ^ more % 64 → 0x80 + n / 64 ^ more % 64 ≤ high.toNat →
        encodeChar (Char.ofNat n) = front ++ tail (more + 1) n

theorem leads_first : Leads [] .first := rfl

theorem toNat_ofNat {n : Nat} (h : n < 0xD800 ∨ 0xDFFF < n ∧ n < 0x110000) :
    (Char.ofNat n).toNat = n := by
  have hn : n.isValidChar := h
  unfold Char.ofNat
  rw [dif_pos hn]
  rfl

variable {k : Nat} {low high : UInt8}

theorem leads_two (h : 2 ≤ k) (hk : k < 32) :
    Leads [(0xC0 + k).toUInt8] (.next 0 k 0x80 0xBF) := by
  refine ⟨le_refl _, le_refl _, fun n hn _ _ => ?_⟩
  rw [pow_one] at hn
  have hc : (Char.ofNat n).toNat = n := toNat_ofNat (by omega)
  unfold encodeChar
  dsimp only
  rw [hc, if_neg (by omega), if_pos (by omega), hn, tail, tail, pow_zero, Nat.div_one]
  rfl

theorem leads_three (hk : k < 16) (hlow : 0x80 ≤ low.toNat) (hhigh : high.toNat ≤ 0xBF)
    (hshort : k = 0 → 0xA0 ≤ low.toNat) (hsurrogate : k = 0xD → high.toNat ≤ 0x9F) :
    Leads [(0xE0 + k).toUInt8] (.next 1 k low high) := by
  refine ⟨hlow, hhigh, fun n hn hlow' hhigh' => ?_⟩
  norm_num at hn hlow' hhigh'
  have hc : (Char.ofNat n).toNat = n := toNat_ofNat (by omega)
  unfold encodeChar
  dsimp only
  rw [hc, if_neg (by omega), if_neg (by omega), if_pos (by omega), hn, tail, tail, tail, pow_zero,
    pow_one, Nat.div_one]
  rfl

theorem leads_four (hk : k < 5) (hlow : 0x80 ≤ low.toNat) (hhigh : high.toNat ≤ 0xBF)
    (hshort : k = 0 → 0x90 ≤ low.toNat) (hlast : k = 4 → high.toNat ≤ 0x8F) :
    Leads [(0xF0 + k).toUInt8] (.next 2 k low high) := by
  refine ⟨hlow, hhigh, fun n hn hlow' hhigh' => ?_⟩
  norm_num at hn hlow' hhigh'
  have hc : (Char.ofNat n).toNat = n := toNat_ofNat (by omega)
  unfold encodeChar
  dsimp only
  rw [hc, if_neg (by omega), if_neg (by omega), if_neg (by omega), hn, tail, tail, tail, tail,
    pow_zero, pow_one, Nat.div_one]
  rfl

theorem byte_eq {b : UInt8} {n : Nat} (h : b.toNat = n) : n.toUInt8 = b := by
  rw [← h]
  exact UInt8.ofNat_toNat

/-- What a first byte is: a character, the start of one, or a fault. -/
theorem start_cases (b : UInt8) :
    (∃ c, start b = ([some c], .first) ∧ encodeChar c = [b]) ∨
      (∃ more bits low high, start b = ([], .next more bits low high) ∧
        Leads [b] (.next more bits low high)) ∨
      start b = ([none], .first) := by
  have hopens {front : Bytes} {more bits : Nat} {low high : UInt8} (hfront : front = [b])
      (h : Leads front (.next more bits low high)) :
      ∃ more' bits' low' high', (([] : List (Option Char)), Expect.next more bits low high) =
        ([], .next more' bits' low' high') ∧ Leads [b] (.next more' bits' low' high') :=
    ⟨_, _, _, _, rfl, hfront ▸ h⟩
  generalize hstart : start b = r
  unfold start at hstart
  simp only [Bool.and_eq_true, decide_eq_true_eq, beq_iff_eq] at hstart
  -- the rows of the table of first bytes
  split_ifs at hstart with h₁ h₂ h₃ h₄ h₅ h₆ h₇ h₈ <;> subst hstart
  · have hc : (Char.ofNat b.toNat).toNat = b.toNat := toNat_ofNat (by omega)
    refine Or.inl ⟨_, rfl, ?_⟩
    unfold encodeChar
    dsimp only
    rw [hc, if_pos h₁]
    exact congrArg (· :: []) (byte_eq rfl)
  · exact Or.inr (Or.inl (hopens (congrArg (· :: []) (byte_eq (by omega)))
      (leads_two (k := b.toNat - 0xC0) (by omega) (by omega))))
  · exact Or.inr (Or.inl (hopens (congrArg (· :: []) (byte_eq h₃))
      (leads_three (k := 0) (by decide) (by decide) (by decide) (by decide) (by decide))))
  · exact Or.inr (Or.inl (hopens (congrArg (· :: []) (byte_eq h₄))
      (leads_three (k := 0xD) (by decide) (by decide) (by decide) (by decide) (by decide))))
  · exact Or.inr (Or.inl (hopens (congrArg (· :: []) (byte_eq (by omega)))
      (leads_three (k := b.toNat - 0xE0) (by omega) (by decide) (by decide) (by omega)
        (by omega))))
  · exact Or.inr (Or.inl (hopens (congrArg (· :: []) (byte_eq h₆))
      (leads_four (k := 0) (by decide) (by decide) (by decide) (by decide) (by decide))))
  · exact Or.inr (Or.inl (hopens (congrArg (· :: []) (byte_eq (by omega)))
      (leads_four (k := b.toNat - 0xF0) (by omega) (by decide) (by decide) (by omega)
        (by omega))))
  · exact Or.inr (Or.inl (hopens (congrArg (· :: []) (byte_eq h₈))
      (leads_four (k := 4) (by decide) (by decide) (by decide) (by decide) (by decide))))
  · exact Or.inr (Or.inr rfl)

/-- The next byte of a sequence. -/
theorem leads_next {front : Bytes} {more bits : Nat} {b : UInt8}
    (h : Leads front (.next (more + 1) bits low high)) (hlow : low ≤ b) (hhigh : b ≤ high) :
    Leads (front ++ [b]) (.next more (bits * 64 + (b.toNat - 0x80)) 0x80 0xBF) := by
  obtain ⟨hmin, hmax, hform⟩ := h
  rw [UInt8.le_iff_toNat_le] at hlow hhigh
  refine ⟨le_refl _, le_refl _, fun n hn _ _ => ?_⟩
  have hdigit : n / 64 ^ (more + 1) % 64 = b.toNat - 0x80 := by omega
  have hbits : n / 64 ^ (more + 1 + 1) = bits := by
    rw [pow_succ, ← Nat.div_div_eq_div_mul]
    omega
  have hb : (0x80 + (b.toNat - 0x80)).toUInt8 = b := by
    rw [Nat.add_sub_cancel' (by omega)]
    exact UInt8.ofNat_toNat
  rw [hform n hbits (by omega) (by omega), tail, hdigit, hb, List.append_assoc]
  rfl

/-- The last byte of a sequence. -/
theorem encodeChar_of_leads {front : Bytes} {bits : Nat} {b : UInt8}
    (h : Leads front (.next 0 bits low high)) (hlow : low ≤ b) (hhigh : b ≤ high) :
    encodeChar (Char.ofNat (bits * 64 + (b.toNat - 0x80))) = front ++ [b] := by
  obtain ⟨hmin, hmax, hform⟩ := h
  rw [UInt8.le_iff_toNat_le] at hlow hhigh
  have hdigit : (bits * 64 + (b.toNat - 0x80)) / 64 ^ 0 % 64 = b.toNat - 0x80 := by
    rw [pow_zero, Nat.div_one]
    omega
  have hb : (0x80 + (b.toNat - 0x80)).toUInt8 = b := by
    rw [Nat.add_sub_cancel' (by omega)]
    exact UInt8.ofNat_toNat
  rw [hform _ (by rw [pow_one]; omega) (by omega) (by omega), tail, hdigit, hb]
  rfl

/-- **What is read without a fault was written as it stands.** -/
theorem encode_of_scan {e : Expect} {front bs : Bytes} {cs : List Char} (he : Leads front e)
    (h : scan e bs = cs.map some) : encode cs = front ++ bs := by
  induction bs generalizing e front cs with
  | nil =>
    cases e with
    | first =>
      obtain rfl : front = [] := he
      obtain rfl : cs = [] := List.map_eq_nil_iff.mp h.symm
      rfl
    | next => 
      cases cs <;> simp [scan] at h
  | cons b bs ih =>
    cases e with
    | first =>
      obtain rfl : front = [] := he
      rw [scan, step] at h
      rcases start_cases b with ⟨c, hb, hc⟩ | ⟨more, bits, low, high, hb, hlead⟩ | hb
      · rw [hb] at h
        obtain ⟨_, rest, rfl, hcons, hrest⟩ := List.map_eq_cons_iff.mp h.symm
        cases hcons
        rw [encode_cons, hc, ih leads_first hrest.symm]
        rfl
      · rw [hb] at h
        exact ih hlead h
      · rw [hb] at h
        cases cs <;> simp at h
    | next more bits low high =>
      rw [scan, step] at h
      split at h
      · next hb =>
        rw [Bool.and_eq_true, decide_eq_true_eq, decide_eq_true_eq] at hb
        cases more with
        | zero =>
          obtain ⟨c, rest, rfl, hcons, hrest⟩ := List.map_eq_cons_iff.mp h.symm
          have hc := encodeChar_of_leads he hb.1 hb.2
          rw [← Option.some.inj hcons] at hc
          rw [encode_cons, hc, ih leads_first hrest.symm, List.append_assoc]
          rfl
        | succ more =>
          rw [ih (leads_next he hb.1 hb.2) h, List.append_assoc]
          rfl
      · cases cs <;> simp at h

end Utf8

/-! ### The lenient reader -/

theorem isBlank_replacement : isBlank Utf8.replacement = false := by decide

theorem decodeLossy_encode (cs : List Char) : decodeLossy (encode cs) = cs := by
  induction cs with
  | nil => rfl
  | cons c cs ih =>
    rw [decodeLossy] at ih ⊢
    rw [encode_cons, Utf8.scan_encodeChar, List.map_cons, ih, Option.getD_some]

/-- Bytes are the form of what is read from them, or there is a mark in it. -/
theorem encode_decodeLossy_or_mem (bs : Bytes) :
    encode (decodeLossy bs) = bs ∨ Utf8.replacement ∈ decodeLossy bs := by
  by_cases h : none ∈ Utf8.scan .first bs
  · exact Or.inr (List.mem_map.mpr ⟨none, h, rfl⟩)
  · have hscan : Utf8.scan .first bs = (decodeLossy bs).map some := by
      rw [decodeLossy, List.map_map]
      refine (List.map_id _).symm.trans (List.map_congr_left fun x hx => ?_)
      cases x with
      | none => exact absurd hx h
      | some c => rfl
    exact Or.inl (Utf8.encode_of_scan Utf8.leads_first hscan)

/-- Bytes that are the form of no text leave a mark. -/
theorem replacement_mem_decodeLossy {bs : Bytes} (h : ∀ cs, encode cs ≠ bs) :
    Utf8.replacement ∈ decodeLossy bs := (encode_decodeLossy_or_mem bs).resolve_left (h _)

/-- **Bytes that are read as blanks** are the form of blanks. -/
theorem isAllBlank_decodeLossy_iff (bs : Bytes) :
    isAllBlank (decodeLossy bs) = true ↔ ∃ cs, isAllBlank cs = true ∧ encode cs = bs := by
  constructor
  · intro h
    refine ⟨_, h, (encode_decodeLossy_or_mem bs).resolve_right fun hmem => ?_⟩
    have hblank := List.all_eq_true.mp h _ hmem
    rw [isBlank_replacement] at hblank
    cases hblank
  · rintro ⟨cs, h, rfl⟩
    rwa [decodeLossy_encode]

end Text
end LintGate
