import Mathlib.Data.List.Infix
import LintGate.Machine.FileSystem

/-!
# Trees, location by location

A change to a tree is seen at the locations it changes.  Everywhere else stands what stood
before.  For a directory this says nothing about what is below it, as that stands at locations
of its own.

## Main definitions

* `Node.bare?` — what stands at a location, without what is below it.
* `Node.Keeps` — what stands in one tree at locations of some kind stands there in another.

## Main results

* `Node.bare?_put`, `Node.bare?_erase` — what a change leaves as it is.
* `Node.get?_erase_of_apart` — the whole trees that are left when something is erased.
-/

namespace LintGate
namespace Node

/-- A node without what is below it. -/
def bare : Node → Node
  | dir _ => empty
  | x => x

/-- What stands at a location, without what is below it. -/
def bare? (x : Node) (l : Location) : Option Node := (x.get? l).map bare

/-- What stands in one tree at the locations of a kind stands there in another, too. -/
def Keeps (x y : Node) (kind : Location → Prop) : Prop :=
  ∀ l a, kind l → x.bare? l = some a → y.bare? l = some a

variable {x y z : Node} {l l' d : Location} {n m : List Char} {es : List (List Char × Node)}

namespace Keeps

variable {kind kind' : Location → Prop}

theorem refl (x : Node) (kind : Location → Prop) : x.Keeps x kind := fun _ _ _ h => h

theorem trans (h : x.Keeps y kind) (h' : y.Keeps z kind) : x.Keeps z kind :=
  fun l a hl ha => h' l a hl (h l a hl ha)

theorem mono (h : x.Keeps y kind) (hkind : ∀ l, kind' l → kind l) : x.Keeps y kind' :=
  fun l a hl => h l a (hkind l hl)

end Keeps

/-! ### Entries of a directory -/

theorem find?_set_ne (h : n ≠ m) (x : Node) (es : List (List Char × Node)) :
    find? m (set n x es) = find? m es := by
  induction es with
  | nil => simp [set, find?, h]
  | cons e es ih =>
    obtain ⟨k, y⟩ := e
    by_cases hk : k = n
    · simp [set, find?, hk, h]
    · simp [set, find?, hk, ih]

theorem find?_unset (n : List Char) (es : List (List Char × Node)) :
    find? n (unset n es) = none := by
  induction es with
  | nil => rfl
  | cons e es ih =>
    obtain ⟨k, y⟩ := e
    by_cases hk : k = n <;> simp [unset, find?, hk, ih]

theorem find?_unset_ne (h : n ≠ m) (es : List (List Char × Node)) :
    find? m (unset n es) = find? m es := by
  induction es with
  | nil => rfl
  | cons e es ih =>
    obtain ⟨k, y⟩ := e
    by_cases hk : k = n
    · simp [unset, find?, hk, h, ih]
    · simp [unset, find?, hk, ih]

/-! ### What stands at a location -/

@[simp] theorem get?_dir_cons (es : List (List Char × Node)) (n : List Char) (l : Location) :
    (dir es).get? (n :: l) = (find? n es).bind (·.get? l) := rfl

theorem get?_append (x : Node) (l l' : Location) :
    x.get? (l ++ l') = (x.get? l).bind (·.get? l') := by
  induction l generalizing x with
  | nil => simp
  | cons n l ih =>
    cases x with
    | dir es =>
      rw [List.cons_append, get?_dir_cons, get?_dir_cons]
      cases find? n es with
      | none => rfl
      | some y => exact ih y
    | file content executable => rfl
    | link target => rfl

theorem get?_cons (x : Node) (n : List Char) (l : Location) :
    x.get? (n :: l) = (x.get? [n]).bind (·.get? l) := get?_append x [n] l

theorem get?_concat (h : x.get? d = some (dir es)) (n : List Char) :
    x.get? (d ++ [n]) = find? n es := by
  rw [get?_append, h]
  cases hn : find? n es <;> simp [hn]

/-- Only a directory has something below it. -/
theorem get?_concat_of_not_dir (h : ∀ es, x.get? d ≠ some (dir es)) (n : List Char) :
    x.get? (d ++ [n]) = none := by
  rw [get?_append]
  cases hd : x.get? d with
  | none => rfl
  | some y =>
    cases y with
    | dir es => exact absurd hd (h es)
    | file content executable => rfl
    | link target => rfl

theorem exists_dir_of_isSome (h : (x.get? (d ++ n :: l)).isSome) :
    ∃ es, x.get? d = some (dir es) := by
  by_contra hne
  have hnone := get?_concat_of_not_dir (not_exists.mp hne) n
  rw [List.append_cons, get?_append, hnone] at h
  exact nomatch h

theorem isSome_bare?_iff : (x.bare? l).isSome ↔ (x.get? l).isSome := by
  rw [bare?, Option.isSome_map]

theorem bare?_eq_none_iff : x.bare? l = none ↔ x.get? l = none := by
  rw [bare?, Option.map_eq_none_iff]

theorem bare?_eq_empty_iff : x.bare? l = some empty ↔ ∃ es, x.get? l = some (dir es) := by
  rw [bare?, Option.map_eq_some_iff]
  constructor
  · rintro ⟨y, hy, he⟩
    cases y with
    | dir es => exact ⟨es, hy⟩
    | file content executable => exact nomatch he
    | link target => exact nomatch he
  · rintro ⟨es, hes⟩
    exact ⟨dir es, hes, rfl⟩

/-- A file or a link has nothing below it, so it stands as it is. -/
theorem bare?_eq_some_iff (h : y.isDir = false) : x.bare? l = some y ↔ x.get? l = some y := by
  rw [bare?, Option.map_eq_some_iff]
  constructor
  · rintro ⟨z, hz, rfl⟩
    cases z with
    | dir es => exact nomatch h
    | file content executable => exact hz
    | link target => exact hz
  · intro hy
    cases y with
    | dir es => exact nomatch h
    | file content executable => exact ⟨_, hy, rfl⟩
    | link target => exact ⟨_, hy, rfl⟩

/-- What is in the file at a location, and whether it can be run. -/
def file? (x : Node) (l : Location) : Option (Bytes × Bool) :=
  match x.get? l with
  | some (.file content executable) => some (content, executable)
  | _ => none

theorem bare?_eq_file_iff {content : Bytes} {executable : Bool} :
    x.bare? l = some (.file content executable) ↔ x.file? l = some (content, executable) := by
  rw [bare?_eq_some_iff rfl, file?]
  cases x.get? l with
  | none => simp
  | some y => cases y <;> simp

instance (x : Node) (l : Location) (content : Bytes) (executable : Bool) :
    Decidable (x.bare? l = some (.file content executable)) :=
  decidable_of_iff _ bare?_eq_file_iff.symm

/-! ### Putting a node at a location -/

theorem get?_put_cons_ne (h : n ≠ m) (x y : Node) (l l' : Location) :
    (x.put (n :: l) y).get? (m :: l') = x.get? (m :: l') := by
  rw [put, get?_dir_cons, find?_set_ne h]
  cases x <;> rfl

/-- A node that is put into a directory leaves everything else as it is. -/
theorem bare?_put (hd : x.get? d = some (dir es)) (h : ¬ d ++ [n] <+: l) (y : Node) :
    (x.put (d ++ [n]) y).bare? l = x.bare? l := by
  induction d generalizing x es l with
  | nil =>
    rw [get?_nil, Option.some_inj] at hd
    subst hd
    cases l with
    | nil => rfl
    | cons k l =>
      have hne : n ≠ k := fun he => h (he ▸ List.prefix_append [n] l)
      exact congrArg (Option.map bare) (get?_put_cons_ne hne _ y [] l)
  | cons m d ih =>
    cases x with
    | file content executable => exact nomatch hd
    | link target => exact nomatch hd
    | dir fs =>
      obtain ⟨z, hz, hd⟩ := Option.bind_eq_some_iff.mp hd
      cases l with
      | nil => rfl
      | cons k l =>
        by_cases hk : m = k
        · subst hk
          rw [List.cons_append, List.cons_prefix_cons] at h
          have hz' : (dir fs).get? (m :: l) = z.get? l := by
            rw [get?_dir_cons, hz, Option.bind_some]
          rw [List.cons_append, put, entries, hz, Option.getD_some, bare?, get?_dir_cons,
            find?_set, bare?, hz']
          exact ih hd fun hbelow => h ⟨rfl, hbelow⟩
        · exact congrArg (Option.map bare) (get?_put_cons_ne hk _ y _ l)

/-- Where nothing stands, nothing is below. -/
theorem get?_eq_none_below (hl : x.get? l = none) (h : l <+: l') : x.get? l' = none := by
  obtain ⟨l', rfl⟩ := h
  rw [get?_append, hl]
  rfl

/-- What is put where nothing stands leaves everything as it is. -/
theorem Keeps.put_of_none (hd : x.get? d = some (dir es)) (hnew : x.get? (d ++ [n]) = none)
    (y : Node) : x.Keeps (x.put (d ++ [n]) y) fun _ => True := by
  intro l a _ ha
  rw [bare?_put hd ?_ y, ha]
  intro hbelow
  rw [bare?_eq_none_iff.mpr (get?_eq_none_below hnew hbelow)] at ha
  exact nomatch ha

/-- Below what is not a directory there is nothing. -/
theorem get?_eq_none_of_not_dir (hl : x.get? l = some y) (hy : y.isDir = false) (h : l <+: l')
    (hne : l' ≠ l) : x.get? l' = none := by
  obtain ⟨l', rfl⟩ := h
  rw [get?_append, hl]
  cases l' with
  | nil => exact absurd (List.append_nil l) hne
  | cons n l' =>
    cases y with
    | dir es => exact nomatch hy
    | file content executable => rfl
    | link target => rfl

/-- What takes the place of a file or a link leaves everything else as it is. -/
theorem Keeps.put_of_not_dir (hl : x.get? l = some y) (hy : y.isDir = false) (z : Node) :
    x.Keeps (x.put l z) fun l' => l' ≠ l := by
  intro l' a hne ha
  have hbelow : ¬ l <+: l' := fun hbelow => by
    rw [bare?_eq_none_iff.mpr (get?_eq_none_of_not_dir hl hy hbelow hne)] at ha
    exact nomatch ha
  rcases List.eq_nil_or_concat l with rfl | ⟨d, n, rfl⟩
  · exact absurd List.nil_prefix hbelow
  · rw [List.concat_eq_append] at hl hbelow ⊢
    obtain ⟨es, hes⟩ := exists_dir_of_isSome (by rw [hl]; rfl)
    rw [bare?_put hes hbelow, ha]

/-! ### Erasing what stands at a location -/

theorem erase_cons_cons (es : List (List Char × Node)) (n m : List Char) (l : Location) :
    (dir es).erase (n :: m :: l) =
      match find? n es with
      | some y => dir (set n (y.erase (m :: l)) es)
      | none => dir es := rfl

theorem get?_erase_cons_ne (h : n ≠ m) (x : Node) (l l' : Location) :
    (x.erase (n :: l)).get? (m :: l') = x.get? (m :: l') := by
  cases x with
  | file content executable => cases l <;> rfl
  | link target => cases l <;> rfl
  | dir es =>
    cases l with
    | nil => rw [erase, get?_dir_cons, find?_unset_ne h, get?_dir_cons]
    | cons k l =>
      rw [erase_cons_cons]
      cases find? n es with
      | none => rfl
      | some y => rw [get?_dir_cons, find?_set_ne h, get?_dir_cons]

/-- Further down, the tree below the first name is changed. -/
theorem get?_erase_cons_self (x : Node) (n k : List Char) (l l' : Location) :
    (x.erase (n :: k :: l)).get? (n :: l') =
      (x.get? [n]).bind fun y => (y.erase (k :: l)).get? l' := by
  cases x with
  | file content executable => rfl
  | link target => rfl
  | dir es =>
    rw [erase_cons_cons, get?_dir_cons]
    cases hn : find? n es with
    | none => simp [hn]
    | some y => simp [find?_set]

/-- What was erased is gone, with everything below it. -/
theorem get?_erase (h : l <+: l') (hne : l' ≠ []) (x : Node) : (x.erase l).get? l' = none := by
  induction l generalizing x l' with
  | nil =>
    obtain ⟨n, l', rfl⟩ := List.exists_cons_of_ne_nil hne
    rfl
  | cons n l ih =>
    obtain ⟨l', rfl⟩ := h
    cases l with
    | nil =>
      cases x with
      | dir es => simp [erase, find?_unset]
      | file content executable => rfl
      | link target => rfl
    | cons m l =>
      rw [List.cons_append, get?_erase_cons_self, Option.bind_eq_none_iff]
      exact fun y _ => ih (List.prefix_append _ _) (List.cons_ne_nil _ _) y

/-- What is not below the location stays as it is. -/
theorem bare?_erase (h : ¬ l <+: l') (x : Node) : (x.erase l).bare? l' = x.bare? l' := by
  induction l generalizing x l' with
  | nil => exact absurd List.nil_prefix h
  | cons n l ih =>
    cases l' with
    | nil =>
      cases x with
      | dir es =>
        cases l with
        | nil => rfl
        | cons m l =>
          rw [erase_cons_cons]
          cases find? n es <;> rfl
      | file content executable => cases l <;> rfl
      | link target => cases l <;> rfl
    | cons k l' =>
      by_cases hk : n = k
      · subst hk
        rw [List.cons_prefix_cons] at h
        have hl : l ≠ [] := fun he => h ⟨rfl, he ▸ List.nil_prefix⟩
        obtain ⟨k, l, rfl⟩ := List.exists_cons_of_ne_nil hl
        rw [bare?, get?_erase_cons_self, bare?, get?_cons x n l']
        cases x.get? [n] with
        | none => rfl
        | some y => exact ih (fun hbelow => h ⟨rfl, hbelow⟩) y
      · exact congrArg (Option.map bare) (get?_erase_cons_ne hk x l l')

/-- What is erased leaves everything that is not below it as it is, and adds nothing. -/
theorem Keeps.erase (x : Node) (l : Location) : x.Keeps (x.erase l) fun l' => ¬ l <+: l' :=
  fun _ _ hl ha => (bare?_erase hl x).trans ha

theorem Keeps.of_erase (hne : l ≠ []) (x : Node) : (x.erase l).Keeps x fun _ => True := by
  intro l' a _ ha
  have hbelow : ¬ l <+: l' := fun hbelow => by
    have hl' : l' ≠ [] := fun he => hne (List.prefix_nil.mp (he ▸ hbelow))
    rw [bare?_eq_none_iff.mpr (get?_erase hbelow hl' x)] at ha
    exact nomatch ha
  rwa [bare?_erase hbelow] at ha

/-- Trees that are neither above nor below the location stay whole. -/
theorem get?_erase_of_apart (h : ¬ l <+: l') (h' : ¬ l' <+: l) (x : Node) :
    (x.erase l).get? l' = x.get? l' := by
  induction l generalizing x l' with
  | nil => exact absurd List.nil_prefix h
  | cons n l ih =>
    cases l' with
    | nil => exact absurd List.nil_prefix h'
    | cons k l' =>
      by_cases hk : n = k
      · subst hk
        rw [List.cons_prefix_cons] at h h'
        have hl : l ≠ [] := fun he => h ⟨rfl, he ▸ List.nil_prefix⟩
        obtain ⟨k, l, rfl⟩ := List.exists_cons_of_ne_nil hl
        rw [get?_erase_cons_self, get?_cons x n l']
        cases x.get? [n] with
        | none => rfl
        | some y => exact ih (fun hbelow => h ⟨rfl, hbelow⟩) (fun hbelow => h' ⟨rfl, hbelow⟩) y
      · exact get?_erase_cons_ne hk x l l'

end Node
end LintGate
