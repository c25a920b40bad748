/-!
# Ordered sets and tables keyed by text

Entries are kept in the order of their texts by code point.  This is the order of the
UTF-8 bytes too, so it does not depend on a locale.

## Main definitions

* `Textual` — types whose values are told apart and ordered by a text.
* `canonical` — a list in order and without repetitions.
* `OrderedSet`, `OrderedMap` — sets and finite maps that hold their entries in
  strictly increasing order.
-/

namespace LintGate

/-- A type whose values are told apart and ordered by a text. -/
class Textual (α : Type) where
  text : α → String
  text_inj : ∀ {a b : α}, text a = text b → a = b

instance : Textual String := ⟨id, id⟩

namespace Text

variable {α β : Type} [Textual α]

/-- The order of texts by code point. -/
def Before (a b : α) : Prop := Textual.text a < Textual.text b

instance (a b : α) : Decidable (Before a b) :=
  inferInstanceAs (Decidable (Textual.text a < Textual.text b))

theorem Before.trans {a b c : α} (h : Before a b) (k : Before b c) : Before a c :=
  String.lt_trans h k

theorem Before.irrefl (a : α) : ¬ Before a a := String.lt_irrefl _

/-- Two values of which neither comes before the other are equal. -/
theorem eq_of_not_before {a b : α} (h : ¬ Before a b) (k : ¬ Before b a) : a = b :=
  Textual.text_inj (String.le_antisymm (String.not_lt.mp k) (String.not_lt.mp h))

/-! ### Inserting into an ordered list -/

/-- Puts an entry in its place, in the room of one with an equal key. -/
def insertBy (key : β → α) (b : β) : List β → List β
  | [] => [b]
  | c :: cs =>
    if Before (key b) (key c) then b :: c :: cs
    else if Before (key c) (key b) then c :: insertBy key b cs
    else b :: cs

/-- What is in the list after an entry was put in: the entry itself, or one that was
in it before. -/
theorem mem_of_mem_insertBy {key : β → α} {b x : β} :
    ∀ {cs : List β}, x ∈ insertBy key b cs → x = b ∨ x ∈ cs
  | [], h => Or.inl (List.mem_singleton.mp h)
  | c :: cs, h => by
    unfold insertBy at h
    split at h
    · rcases List.mem_cons.mp h with rfl | h
      · exact Or.inl rfl
      · exact Or.inr h
    · split at h
      · rcases List.mem_cons.mp h with rfl | h
        · exact Or.inr List.mem_cons_self
        · exact (mem_of_mem_insertBy h).imp_right (List.mem_cons_of_mem c)
      · rcases List.mem_cons.mp h with rfl | h
        · exact Or.inl rfl
        · exact Or.inr (List.mem_cons_of_mem c h)

/-- An ordered list stays ordered. -/
theorem pairwise_insertBy (key : β → α) (b : β) :
    ∀ {cs : List β}, cs.Pairwise (fun x y => Before (key x) (key y)) →
      (insertBy key b cs).Pairwise (fun x y => Before (key x) (key y))
  | [], _ => List.pairwise_singleton _ _
  | c :: cs, h => by
    have hc : ∀ x ∈ cs, Before (key c) (key x) := fun x hx => List.rel_of_pairwise_cons h hx
    have hcs := List.Pairwise.of_cons h
    unfold insertBy
    split
    · rename_i hb
      refine List.Pairwise.cons (fun x hx => ?_) h
      rcases List.mem_cons.mp hx with rfl | hx
      · exact hb
      · exact hb.trans (hc x hx)
    · split
      · rename_i hcb
        refine List.Pairwise.cons (fun x hx => ?_) (pairwise_insertBy key b hcs)
        rcases mem_of_mem_insertBy hx with rfl | hx
        · exact hcb
        · exact hc x hx
      · rename_i hb hcb
        refine List.Pairwise.cons (fun x hx => ?_) hcs
        have : key b = key c := eq_of_not_before hb hcb
        simpa [Before, this] using hc x hx

/-- The list in order, with equal values once. -/
def canonical (as : List α) : List α := as.foldr (insertBy id) []

theorem pairwise_canonical (as : List α) : (canonical as).Pairwise Before := by
  induction as with
  | nil => exact List.Pairwise.nil
  | cons a as ih => exact pairwise_insertBy id a ih

end Text

open Text

/-! ### Ordered sets -/

/-- A finite set, its members in order. -/
structure OrderedSet (α : Type) [Textual α] where
  toList : List α
  ordered : toList.Pairwise Before

namespace OrderedSet

variable {α : Type} [Textual α]

/-- The set without members. -/
def empty : OrderedSet α := ⟨[], List.Pairwise.nil⟩

/-- The set with one more member. -/
def insert (a : α) (s : OrderedSet α) : OrderedSet α :=
  ⟨insertBy id a s.toList, pairwise_insertBy id a s.ordered⟩

/-- The members of a list. -/
def ofList (as : List α) : OrderedSet α := ⟨canonical as, pairwise_canonical as⟩

/-- Whether a value is a member. -/
def contains (s : OrderedSet α) (a : α) : Bool :=
  s.toList.any fun b => Textual.text b == Textual.text a

/-- The members with a property. -/
def filter (p : α → Bool) (s : OrderedSet α) : OrderedSet α :=
  ⟨s.toList.filter p, s.ordered.filter p⟩

/-- The number of members. -/
def size (s : OrderedSet α) : Nat := s.toList.length

/-- Whether there is no member. -/
def isEmpty (s : OrderedSet α) : Bool := s.toList.isEmpty

@[simp] theorem toList_empty : (empty : OrderedSet α).toList = [] := rfl

@[simp] theorem toList_ofList (as : List α) : (ofList as).toList = canonical as := rfl

@[simp] theorem toList_filter (p : α → Bool) (s : OrderedSet α) :
    (s.filter p).toList = s.toList.filter p := rfl

end OrderedSet

/-! ### Ordered tables -/

/-- A finite map, its entries in the order of their keys. -/
structure OrderedMap (α β : Type) [Textual α] where
  entries : List (α × β)
  ordered : entries.Pairwise fun x y => Before x.1 y.1

namespace OrderedMap

variable {α β : Type} [Textual α]

/-- The map without entries. -/
def empty : OrderedMap α β := ⟨[], List.Pairwise.nil⟩

/-- Maps a key to a value, in the place of the value it had. -/
def insert (a : α) (b : β) (m : OrderedMap α β) : OrderedMap α β :=
  ⟨insertBy Prod.fst (a, b) m.entries, pairwise_insertBy Prod.fst (a, b) m.ordered⟩

/-- The map of a list of entries; of two with one key the later counts. -/
def ofList (es : List (α × β)) : OrderedMap α β := es.foldl (fun m e => m.insert e.1 e.2) empty

/-- The value of a key. -/
def get? (m : OrderedMap α β) (a : α) : Option β :=
  (m.entries.find? fun e => Textual.text e.1 == Textual.text a).map Prod.snd

/-- The keys, in order. -/
def keys (m : OrderedMap α β) : List α := m.entries.map Prod.fst

/-- The number of entries. -/
def size (m : OrderedMap α β) : Nat := m.entries.length

/-- Whether there is no entry. -/
def isEmpty (m : OrderedMap α β) : Bool := m.entries.isEmpty

@[simp] theorem entries_empty : (empty : OrderedMap α β).entries = [] := rfl

end OrderedMap
end LintGate
