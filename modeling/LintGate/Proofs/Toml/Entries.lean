import LintGate.Config.Read

/-!
# Entries of a table

## Main results

* `Entries.get?_set` — the value of a key after an entry was set.
* `Entries.set_of_none` — an entry with a new key comes last.
* `Value.entriesStorable_iff` — entries can be stored if every value can.
-/

namespace LintGate
namespace Toml

namespace Entries

variable {es : Entries} {k : List Char}

theorem mem_of_get? {v : Value} (h : es.get? k = some v) : (k, v) ∈ es := by
  induction es with
  | nil => cases h
  | cons e es ih =>
    rw [get?] at h
    split at h
    · next hk =>
      cases h
      exact hk ▸ List.mem_cons_self
    · exact List.mem_cons_of_mem _ (ih h)

theorem get?_eq_none_iff : es.get? k = none ↔ k ∉ es.map Prod.fst := by
  induction es with
  | nil => simp [get?]
  | cons e es ih =>
    rw [get?, List.map_cons, List.mem_cons, not_or]
    split
    · next h => simp [h]
    · next h => rw [ih, and_iff_right (Ne.symm h)]

theorem get?_set (k : List Char) (v : Value) (es : Entries) (key : List Char) :
    (es.set k v).get? key = if k = key then some v else es.get? key := by
  induction es with
  | nil => rfl
  | cons e es ih =>
    obtain ⟨k', w⟩ := e
    rw [set]
    split
    · next hk =>
      subst hk
      rw [get?, get?]
      split <;> rfl
    · next hk =>
      rw [get?, get?, ih]
      split
      · next hkey => rw [if_neg fun h => hk (hkey.trans h.symm)]
      · rfl

theorem set_of_none (h : es.get? k = none) (v : Value) : es.set k v = es ++ [(k, v)] := by
  induction es with
  | nil => rfl
  | cons e es ih =>
    rw [get?] at h
    split at h
    · cases h
    · next hne => rw [set, if_neg hne, ih h, List.cons_append]

theorem get?_append_of_none (h : es.get? k = none) (v : Value) :
    (es ++ [(k, v)]).get? k = some v := by
  rw [← set_of_none h, get?_set, if_pos rfl]

theorem set_append_of_none (h : es.get? k = none) (v w : Value) :
    (es ++ [(k, v)]).set k w = es ++ [(k, w)] := by
  induction es with
  | nil => simp [set]
  | cons e es ih =>
    rw [get?] at h
    split at h
    · cases h
    · next hne => rw [List.cons_append, set, if_neg hne, ih h, List.cons_append]

end Entries

namespace Value

theorem entriesStorable_iff {es : Entries} :
    entriesStorable es = true ↔ ∀ e ∈ es, e.2.isStorable = true := by
  induction es with
  | nil => simp [entriesStorable]
  | cons e es ih =>
    obtain ⟨k, v⟩ := e
    rw [entriesStorable, Bool.and_eq_true, ih, List.forall_mem_cons]

theorem itemsStorable_iff {vs : List Value} :
    itemsStorable vs = true ↔ ∀ v ∈ vs, v.isStorable = true := by
  induction vs with
  | nil => simp [itemsStorable]
  | cons v vs ih => rw [itemsStorable, Bool.and_eq_true, ih, List.forall_mem_cons]

end Value
end Toml
end LintGate
