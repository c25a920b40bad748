import LintGate.Text.Ordered
import Mathlib.Data.List.Dedup
import Mathlib.Data.List.Induction

/-!
# What ordered sets and tables hold

Sets and tables are lists that are kept in order.  Here they are read as what they
hold: a set by its members, a table by the value of each key.

## Main results

* `mem_canonical` — putting a list in order loses nothing and adds nothing.
* `eq_canonical_iff` — the lists that are in order already.
* `length_canonical_eq_iff` — the lists in which nothing is repeated.
* `OrderedSet.contains_iff_mem`, `OrderedSet.mem_insert` — the members of a set.
* `OrderedMap.get?_insert`, `OrderedMap.get?_ofList` — the values of a table.
* `OrderedSet.ext_mem`, `OrderedMap.ext_get?` — what holds the same is the same.
-/

namespace LintGate
namespace Text

variable {α β : Type} [Textual α]

/-- A value is told apart from another by its text. -/
theorem text_eq_iff {a b : α} : Textual.text a = Textual.text b ↔ a = b :=
  ⟨Textual.text_inj, fun h => h ▸ rfl⟩

theorem Before.ne {a b : α} (h : Before a b) : a ≠ b := by
  rintro rfl
  exact Before.irrefl a h

theorem mem_insertBy_id {a x : α} {cs : List α} :
    x ∈ insertBy id a cs ↔ x = a ∨ x ∈ cs := by
  induction cs with
  | nil => simp [insertBy]
  | cons c cs ih =>
    unfold insertBy
    split
    · exact List.mem_cons
    · split
      · rw [List.mem_cons, ih, List.mem_cons]
        exact or_left_comm
      · next h k =>
        -- the entry takes the room of one that it is equal to
        have hac : a = c := eq_of_not_before h k
        rw [hac, List.mem_cons, ← or_assoc, or_self]

/-- Putting a list in order loses nothing and adds nothing. -/
theorem mem_canonical {x : α} {as : List α} : x ∈ canonical as ↔ x ∈ as := by
  induction as with
  | nil => rfl
  | cons a as ih =>
    have hstep : canonical (a :: as) = insertBy id a (canonical as) := rfl
    rw [hstep, mem_insertBy_id, ih, List.mem_cons]

theorem Before.asymm {a b : α} (h : Before a b) : ¬ Before b a :=
  fun k => Before.irrefl a (h.trans k)

/-- Two lists in order with the same members are the same list. -/
theorem eq_of_mem_iff {before : β → β → Prop} (hasymm : ∀ x y, before x y → ¬ before y x)
    {as bs : List β} (ha : as.Pairwise before) (hb : bs.Pairwise before)
    (h : ∀ x, x ∈ as ↔ x ∈ bs) : as = bs := by
  have hne : ∀ {x y}, before x y → x ≠ y := by
    rintro x _ hxy rfl
    exact hasymm x x hxy hxy
  have hnodup : ∀ {cs : List β}, cs.Pairwise before → cs.Nodup := fun hc => hc.imp hne
  exact List.Perm.eq_of_pairwise (fun x y _ _ hxy hyx => absurd hyx (hasymm x y hxy)) ha hb
    ((List.perm_ext_iff_of_nodup (hnodup ha) (hnodup hb)).mpr h)

/-- A list in order, ordered by another relation too: it is enough to know the members. -/
theorem pairwise_iff_of_pairwise {before after : β → β → Prop}
    (hasymm : ∀ x y, before x y → ¬ before y x) {as : List β} (ha : as.Pairwise before) :
    as.Pairwise after ↔ ∀ x ∈ as, ∀ y ∈ as, before x y → after x y := by
  refine ⟨fun h => ?_, fun h => ha.imp_of_mem fun {x y} hx hy hxy => h x hx y hy hxy⟩
  induction as with
  | nil => exact fun x hx => absurd hx List.not_mem_nil
  | cons a as ih =>
    rw [List.pairwise_cons] at ha h
    intro x hx y hy hxy
    -- nothing comes before the first member
    rcases List.mem_cons.mp hy with rfl | hyas
    · rcases List.mem_cons.mp hx with rfl | hxas
      · exact absurd hxy (hasymm x x hxy)
      · exact absurd hxy (hasymm y x (ha.1 x hxas))
    · rcases List.mem_cons.mp hx with rfl | hxas
      · exact h.1 y hyas
      · exact ih ha.2 h.2 x hxas y hyas hxy

/-- Lists with the same members are put in order the same way. -/
theorem canonical_congr {as bs : List α} (h : ∀ x, x ∈ as ↔ x ∈ bs) :
    canonical as = canonical bs :=
  eq_of_mem_iff (fun _ _ h => h.asymm) (pairwise_canonical as) (pairwise_canonical bs) fun x => by
    rw [mem_canonical, mem_canonical, h]

/-- The lists that are in order already. -/
theorem eq_canonical_iff {as : List α} : as = canonical as ↔ as.Pairwise Before := by
  refine ⟨fun h => h ▸ pairwise_canonical as, fun h => ?_⟩
  exact eq_of_mem_iff (fun _ _ h => h.asymm) h (pairwise_canonical as) fun x =>
    mem_canonical.symm

theorem canonical_perm_dedup [DecidableEq α] (as : List α) : (canonical as).Perm as.dedup := by
  have hnodup : (canonical as).Nodup := (pairwise_canonical as).imp Before.ne
  refine (List.perm_ext_iff_of_nodup hnodup (List.nodup_dedup as)).mpr fun x => ?_
  rw [mem_canonical, List.mem_dedup]

theorem length_canonical_le (as : List α) : (canonical as).length ≤ as.length := by
  classical
  rw [(canonical_perm_dedup as).length_eq]
  exact (List.dedup_sublist as).length_le

/-- A list is as long as before only if nothing in it is repeated. -/
theorem length_canonical_eq_iff (as : List α) :
    (canonical as).length = as.length ↔ as.Nodup := by
  classical
  rw [(canonical_perm_dedup as).length_eq, ← List.dedup_eq_self]
  exact ⟨(List.dedup_sublist as).eq_of_length, congrArg List.length⟩

/-- Looking a key up right after its entry was put in. -/
theorem find?_insertBy_self (a : α) (b : β) (es : List (α × β)) :
    (insertBy Prod.fst (a, b) es).find? (fun e => Textual.text e.1 == Textual.text a) =
      some (a, b) := by
  induction es with
  | nil => simp [insertBy]
  | cons e es ih =>
    unfold insertBy
    split
    · simp
    · split
      · next h =>
        have hne : Textual.text e.1 ≠ Textual.text a := fun he => h.ne (Textual.text_inj he)
        rw [List.find?_cons_of_neg (by simpa using hne)]
        exact ih
      · simp

/-- Putting an entry in leaves what is found under another key. -/
theorem find?_insertBy_of_ne {a c : α} (h : c ≠ a) (b : β) (es : List (α × β)) :
    (insertBy Prod.fst (a, b) es).find? (fun e => Textual.text e.1 == Textual.text c) =
      es.find? fun e => Textual.text e.1 == Textual.text c := by
  have hac : Textual.text a ≠ Textual.text c := fun he => h (Textual.text_inj he).symm
  induction es with
  | nil => simp [insertBy, hac]
  | cons e es ih =>
    unfold insertBy
    split
    · rw [List.find?_cons_of_neg (by simpa using hac)]
    · split
      · rw [List.find?_cons, List.find?_cons, ih]
      · next hae hea =>
        have he : a = e.1 := eq_of_not_before hae hea
        rw [List.find?_cons_of_neg (by simpa using hac),
          List.find?_cons_of_neg (by simpa [he] using hac)]

end Text

open Text

namespace OrderedSet

variable {α : Type} [Textual α]

theorem contains_iff_mem {s : OrderedSet α} {a : α} : s.contains a = true ↔ a ∈ s.toList := by
  simp only [contains, List.any_eq_true, beq_iff_eq, text_eq_iff, exists_eq_right]

theorem contains_eq_false_iff {s : OrderedSet α} {a : α} :
    s.contains a = false ↔ a ∉ s.toList := by
  rw [← contains_iff_mem, Bool.not_eq_true]

theorem mem_insert {s : OrderedSet α} {a x : α} :
    x ∈ (s.insert a).toList ↔ x = a ∨ x ∈ s.toList := mem_insertBy_id

theorem mem_ofList {as : List α} {x : α} : x ∈ (ofList as).toList ↔ x ∈ as := mem_canonical

theorem isEmpty_iff {s : OrderedSet α} : s.isEmpty = true ↔ ∀ a, a ∉ s.toList := by
  rw [isEmpty, List.isEmpty_iff, List.eq_nil_iff_forall_not_mem]

/-- Sets with the same members are the same. -/
theorem ext_mem {s t : OrderedSet α} (h : ∀ a, a ∈ s.toList ↔ a ∈ t.toList) : s = t := by
  obtain ⟨as, ha⟩ := s
  obtain ⟨bs, hb⟩ := t
  obtain rfl : as = bs := eq_of_mem_iff (fun _ _ h => h.asymm) ha hb h
  rfl

end OrderedSet

namespace OrderedMap

variable {α β : Type} [Textual α]

theorem get?_insert [DecidableEq α] (m : OrderedMap α β) (a c : α) (b : β) :
    (m.insert a b).get? c = if c = a then some b else m.get? c := by
  split
  · next h =>
    subst h
    exact congrArg (Option.map Prod.snd) (find?_insertBy_self c b m.entries)
  · next h => exact congrArg (Option.map Prod.snd) (find?_insertBy_of_ne h b m.entries)

theorem isEmpty_iff {m : OrderedMap α β} : m.isEmpty = true ↔ ∀ a, m.get? a = none := by
  obtain ⟨es, ordered⟩ := m
  cases es with
  | nil => exact iff_of_true rfl fun _ => rfl
  | cons e es =>
    refine iff_of_false (by simp [isEmpty]) fun h => ?_
    have := h e.1
    simp [get?] at this

/-- The entries are the keys with their values. -/
theorem mem_entries_iff {m : OrderedMap α β} {a : α} {b : β} :
    (a, b) ∈ m.entries ↔ m.get? a = some b := by
  obtain ⟨es, ordered⟩ := m
  show (a, b) ∈ es ↔ (es.find? fun e => Textual.text e.1 == Textual.text a).map Prod.snd = some b
  induction es with
  | nil => simp
  | cons e es ih =>
    have hrest := ih ordered.of_cons
    by_cases he : e.1 = a
    · -- a later entry has a later key
      have hlater : (a, b) ∉ es := fun hmem =>
        (List.rel_of_pairwise_cons ordered hmem).ne he
      rw [List.find?_cons_of_pos (by simp [he]), List.mem_cons, or_iff_left hlater]
      subst he
      simp [Prod.ext_iff, eq_comm]
    · have hne : Textual.text e.1 ≠ Textual.text a := fun h => he (Textual.text_inj h)
      rw [List.find?_cons_of_neg (by simpa using hne), List.mem_cons, hrest]
      refine or_iff_right fun h => he ?_
      rw [← h]

theorem mem_keys_iff {m : OrderedMap α β} {a : α} : a ∈ m.keys ↔ ∃ b, m.get? a = some b := by
  rw [keys, List.mem_map]
  constructor
  · rintro ⟨⟨a, b⟩, he, rfl⟩
    exact ⟨b, mem_entries_iff.mp he⟩
  · rintro ⟨b, hb⟩
    exact ⟨(a, b), mem_entries_iff.mpr hb, rfl⟩

/-- Tables with the same values are the same. -/
theorem ext_get? {m n : OrderedMap α β} (h : ∀ a, m.get? a = n.get? a) : m = n := by
  have hmem : ∀ e, e ∈ m.entries ↔ e ∈ n.entries := fun (a, b) => by
    rw [mem_entries_iff, mem_entries_iff, h]
  obtain ⟨es, he⟩ := m
  obtain ⟨fs, hf⟩ := n
  obtain rfl : es = fs := eq_of_mem_iff (fun _ _ h => h.asymm) he hf hmem
  rfl

/-- One entry more at the end of a list. -/
theorem ofList_concat (es : List (α × β)) (e : α × β) :
    ofList (es ++ [e]) = (ofList es).insert e.1 e.2 := by
  simp [ofList, List.foldl_append]

/-- The table of entries that agree with a function, however often a key is listed. -/
theorem get?_ofList [DecidableEq α] {f : α → Option β} {es : List (α × β)}
    (h : ∀ e ∈ es, f e.1 = some e.2) (a : α) :
    (ofList es).get? a = if a ∈ es.map Prod.fst then f a else none := by
  -- the later entry counts, so the induction is on the end of the list
  induction es using List.reverseRecOn with
  | nil => rfl
  | append_singleton es e ih =>
    have he : f e.1 = some e.2 := h e (by simp)
    rw [ofList_concat, get?_insert, ih fun e' he' => h e' (List.mem_append_left [e] he'),
      List.map_append, List.map_singleton]
    by_cases ha : a = e.1
    · simp [ha, he]
    · simp only [ha, if_false, List.mem_append, List.mem_singleton, or_false]

/-- The table of a function on the keys of a list. -/
theorem get?_ofList_map [DecidableEq α] (f : α → β) (as : List α) (a : α) :
    (ofList (as.map fun x => (x, f x))).get? a = if a ∈ as then some (f a) else none := by
  have hes : ∀ e ∈ as.map fun x => (x, f x), some (f e.1) = some e.2 := by
    simp
  rw [get?_ofList (f := fun x => some (f x)) hes, List.map_map]
  simp

end OrderedMap
end LintGate
