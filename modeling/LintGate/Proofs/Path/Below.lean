import LintGate.Proofs.Path
import LintGate.Proofs.Text.Lines

/-!
# Paths below a directory

A path leads somewhere by its pieces alone, as long as no links are looked at: a name leads down,
two dots lead up, and a single dot or nothing leads nowhere.  What is seen from a directory stays
below it if the way never goes up further than it went down before.  The way is followed with a
count of the steps down for this, and the count is exact: a way that leads out of one directory
leads out of another one for good, since it never comes back to a name that it does not know.

## Main definitions

* `Path.placeOf` — the place that a path leads to, from the current directory.
* `Path.AtOrBelow`, `Path.Below` — one path leads to, or below, the place of another.
* `Path.depth?` — how deep a way ends below its start, if it never leads out of it.

## Main results

* `Path.walk_of_depth?` — a way that is never out ends below its start.
* `Path.not_mem_walk_of_depth?` — a way that leads out of a directory does not come back.
* `Path.below_join_iff` — **the paths that lead below every directory that they are seen from.**
-/

namespace LintGate
namespace Path

open Text

/-! ### Places -/

/-- One step from a place: `..` leads up, a name leads down. -/
def enter (place : List (List Char)) (piece : List Char) : List (List Char) :=
  if piece = [] ∨ piece = ['.'] then place
  else if piece = ['.', '.'] then place.dropLast
  else place ++ [piece]

/-- A way from a place. -/
def walk (place : List (List Char)) (pieces : List (List Char)) : List (List Char) :=
  pieces.foldl enter place

/-- The place that a path leads to, from the current directory. -/
def placeOf (current : List (List Char)) (p : String) : List (List Char) :=
  walk (if isAbsolute p.toList then [] else current) (splitOn '/' p.toList)

/-- A path leads to the place of another one, or below it. -/
def AtOrBelow (current : List (List Char)) (root p : String) : Prop :=
  placeOf current root <+: placeOf current p

/-- A path leads below the place of another one. -/
def Below (current : List (List Char)) (root p : String) : Prop :=
  AtOrBelow current root p ∧ placeOf current p ≠ placeOf current root

instance (current : List (List Char)) (root p : String) : Decidable (AtOrBelow current root p) :=
  inferInstanceAs (Decidable (_ <+: _))

instance (current : List (List Char)) (root p : String) : Decidable (Below current root p) :=
  inferInstanceAs (Decidable (_ ∧ _))

theorem Below.trans {current : List (List Char)} {a b c : String} (h : Below current a b)
    (h' : Below current b c) : Below current a c := by
  refine ⟨h.1.trans h'.1, fun he => h.2 ?_⟩
  -- What leads below `b` and to the place of `a` would be above `b` as well.
  have hback := h'.1
  rw [AtOrBelow, he] at hback
  exact (h.1.eq_of_length (Nat.le_antisymm h.1.length_le hback.length_le)).symm

variable {place current : List (List Char)} {ps : List (List Char)}

@[simp] theorem walk_nil (place : List (List Char)) : walk place [] = place := rfl

@[simp] theorem walk_cons (place : List (List Char)) (p : List Char) (ps : List (List Char)) :
    walk place (p :: ps) = walk (enter place p) ps := rfl

theorem walk_append (place : List (List Char)) (ps qs : List (List Char)) :
    walk place (ps ++ qs) = walk (walk place ps) qs := List.foldl_append

/-- What is seen from a directory leads on from there. -/
theorem placeOf_join {p : String} (h : isAbsolute p.toList = false) (base : String) :
    placeOf current (join base p) = walk (placeOf current base) (splitOn '/' p.toList) := by
  rw [placeOf, placeOf, join, String.toList_ofList, joinChars, h, if_neg Bool.false_ne_true]
  by_cases hnil : base.toList = []
  · simp [hnil, h, splitOn, enter, show isAbsolute [] = false from rfl]
  · -- A directory that is not the empty text tells whether the path is absolute.
    have habs (q : List Char) : isAbsolute (base.toList ++ q) = isAbsolute base.toList := by
      obtain ⟨c, cs, hcs⟩ := List.exists_cons_of_ne_nil hnil
      rw [hcs]
      rfl
    have hempty : base.toList.isEmpty = false := List.isEmpty_eq_false_iff.mpr hnil
    split
    · next hlast =>
      rw [hempty, Bool.false_or, beq_iff_eq] at hlast
      obtain ⟨front, hfront⟩ := List.getLast?_eq_some_iff.mp hlast
      have hsplit (q : List Char) : splitOn '/' (front ++ ['/'] ++ q) =
          splitOn '/' front ++ splitOn '/' q := by
        rw [List.append_assoc, List.singleton_append, splitOn_append]
      have hend := hsplit []
      rw [List.append_nil] at hend
      rw [habs, hfront, hsplit, hend, walk_append, walk_append]
      simp [splitOn, enter]
    · rw [habs, splitOn_append, walk_append]

/-! ### The depth of a way -/

/-- One step counted from the start of a way; `none` if it leads out of it. -/
def descend? (depth : Nat) (piece : List Char) : Option Nat :=
  if piece = [] ∨ piece = ['.'] then some depth
  else if piece = ['.', '.'] then if depth = 0 then none else some (depth - 1)
  else some (depth + 1)

/-- How deep a way ends below its start, if it never leads out of it. -/
def depth? (depth : Nat) (pieces : List (List Char)) : Option Nat := pieces.foldlM descend? depth

@[simp] theorem depth?_nil (d : Nat) : depth? d [] = some d := rfl

@[simp] theorem depth?_cons (d : Nat) (p : List Char) (ps : List (List Char)) :
    depth? d (p :: ps) = (descend? d p).bind (depth? · ps) := rfl

theorem depth?_append (d : Nat) (ps qs : List (List Char)) :
    depth? d (ps ++ qs) = (depth? d ps).bind (depth? · qs) := List.foldlM_append

variable {d e : Nat} {p r : List Char} {inner : List (List Char)}

/-- A step that is counted stays below the start. -/
theorem enter_of_descend? (h : descend? d p = some e) (base : List (List Char))
    (hd : inner.length = d) :
    ∃ inner', inner'.length = e ∧ inner' ⊆ p :: inner ∧
      enter (base ++ inner) p = base ++ inner' := by
  rw [enter]
  rw [descend?] at h
  split
  · next hp =>
    rw [if_pos hp] at h
    exact ⟨inner, hd.trans (Option.some_inj.mp h), List.subset_cons_self p inner, rfl⟩
  · next hp =>
    rw [if_neg hp] at h
    split
    · next hup =>
      rw [if_pos hup] at h
      split at h
      · exact nomatch h
      · next hne =>
        have hinner : inner ≠ [] := fun he => hne (by rw [← hd, he, List.length_nil])
        refine ⟨inner.dropLast, ?_, List.Subset.trans (List.dropLast_subset inner)
          (List.subset_cons_self p inner), List.dropLast_append_of_ne_nil hinner⟩
        rw [List.length_dropLast, hd]
        exact Option.some_inj.mp h
    · next hup =>
      rw [if_neg hup] at h
      refine ⟨inner ++ [p], ?_, by simp, List.append_assoc base inner [p]⟩
      rw [List.length_append, hd]
      exact Option.some_inj.mp h

/-- A step that is not counted leads up from the start. -/
theorem descend?_eq_none_iff : descend? d p = none ↔ p = ['.', '.'] ∧ d = 0 := by
  rw [descend?]
  split
  · next hp =>
    refine iff_of_false nofun ?_
    rintro ⟨rfl, -⟩
    simp at hp
  · split
    · next hup => simp [hup]
    · next hup => exact iff_of_false nofun fun h => hup h.1

/-- A way that never leads out of its start ends below it. -/
theorem walk_of_depth? (h : depth? d ps = some e) (base : List (List Char))
    (hd : inner.length = d) :
    ∃ inner', inner'.length = e ∧ walk (base ++ inner) ps = base ++ inner' := by
  induction ps generalizing d inner with
  | nil => exact ⟨inner, hd.trans (Option.some_inj.mp h), rfl⟩
  | cons p ps ih =>
    obtain ⟨d', hstep, hrest⟩ := Option.bind_eq_some_iff.mp h
    obtain ⟨inner', hd', -, henter⟩ := enter_of_descend? hstep base hd
    rw [walk_cons, henter]
    exact ih hrest hd'

/-- No name is met but those of the place and those of the way. -/
theorem not_mem_walk (hplace : r ∉ place) (hps : r ∉ ps) : r ∉ walk place ps := by
  induction ps generalizing place with
  | nil => exact hplace
  | cons p ps ih =>
    rw [List.mem_cons, not_or] at hps
    refine ih ?_ hps.2
    rw [enter]
    split
    · exact hplace
    · split
      · exact fun hr => hplace (List.dropLast_subset place hr)
      · rw [List.mem_append, List.mem_singleton, not_or]
        exact ⟨hplace, hps.1⟩

/-- A way that leads out of a directory does not come back to it, unless it knows its name. -/
theorem not_mem_walk_of_depth? (h : depth? d ps = none) (hps : r ∉ ps) (hinner : r ∉ inner)
    (hd : inner.length = d) : r ∉ walk ([r] ++ inner) ps := by
  induction ps generalizing d inner with
  | nil => exact nomatch h
  | cons p ps ih =>
    rw [List.mem_cons, not_or] at hps
    rw [walk_cons]
    cases hstep : descend? d p with
    | none =>
      -- This is the step out: it leaves the name of the directory behind.
      obtain ⟨rfl, rfl⟩ := descend?_eq_none_iff.mp hstep
      obtain rfl := List.eq_nil_of_length_eq_zero hd
      exact not_mem_walk List.not_mem_nil hps.2
    | some d' =>
      obtain ⟨inner', hd', hsub, henter⟩ := enter_of_descend? hstep [r] hd
      rw [depth?_cons, hstep] at h
      rw [henter]
      refine ih h hps.2 (fun hr => ?_) hd'
      rcases List.mem_cons.mp (hsub hr) with he | hr
      · exact hps.1 he
      · exact hinner hr

/-! ### Ways from every directory -/

/-- A way that never leads out of its start, and ends below it. -/
def StaysBelow (pieces : List (List Char)) : Prop := ∃ d, 0 < d ∧ depth? 0 pieces = some d

theorem staysBelow_iff : StaysBelow ps ↔ (depth? 0 ps).any (0 < ·) = true := by
  simp [StaysBelow, Option.any_eq_true, and_comm]

instance (pieces : List (List Char)) : Decidable (StaysBelow pieces) :=
  decidable_of_iff _ staysBelow_iff.symm

/-- A way that stays below ends below every place that it is gone from. -/
theorem StaysBelow.walk (h : StaysBelow ps) (base : List (List Char)) :
    base <+: Path.walk base ps ∧ Path.walk base ps ≠ base := by
  obtain ⟨d, hd, hdepth⟩ := h
  obtain ⟨inner, hlen, hwalk⟩ := walk_of_depth? hdepth base List.length_nil
  rw [List.append_nil] at hwalk
  rw [hwalk]
  refine ⟨List.prefix_append base inner, fun he => ?_⟩
  have hnil : inner = [] := by simpa using he
  rw [hnil, List.length_nil] at hlen
  omega

/-- A way that ends below one place whose name it does not know stays below. -/
theorem staysBelow_of_walk (hr : r ∉ ps) (h : [r] <+: walk [r] ps ∧ walk [r] ps ≠ [r]) :
    StaysBelow ps := by
  cases hdepth : depth? 0 ps with
  | none =>
    exact absurd (h.1.subset (List.mem_singleton_self r))
      (not_mem_walk_of_depth? hdepth hr List.not_mem_nil rfl)
  | some d =>
    refine ⟨d, Nat.pos_of_ne_zero fun hzero => h.2 ?_, hdepth⟩
    obtain ⟨inner, hlen, hwalk⟩ := walk_of_depth? hdepth [r] List.length_nil
    rw [hzero] at hlen
    rwa [List.eq_nil_of_length_eq_zero hlen, List.append_nil] at hwalk

/-- A single name leads down. -/
theorem enter_name {n : List Char} (h : ∃ c ∈ n, c ≠ '.') :
    (∀ place, enter place n = place ++ [n]) ∧ ∀ d, descend? d n = some (d + 1) := by
  obtain ⟨c, hc, hdot⟩ := h
  have hne {q : List Char} (hq : ∀ c ∈ q, c = '.') : n ≠ q := fun he => hdot (hq c (he ▸ hc))
  have hstays : ¬ (n = [] ∨ n = ['.']) := not_or.mpr ⟨hne (by simp), hne (by simp)⟩
  have hdown : n ≠ ['.', '.'] := hne (by simp)
  exact ⟨fun place => by rw [enter, if_neg hstays, if_neg hdown],
    fun d => by rw [descend?, if_neg hstays, if_neg hdown]⟩

/-- What has a name of its own in a directory is below it. -/
theorem below_join_name {n : String} (hslash : '/' ∉ n.toList) (h : ∃ c ∈ n.toList, c ≠ '.')
    (dir : String) : Below current dir (join dir n) := by
  have habs : isAbsolute n.toList = false := isAbsolute_of_not_mem hslash
  rw [Below, AtOrBelow, placeOf_join habs, splitOn_of_not_mem hslash, walk_cons, walk_nil,
    (enter_name h).1]
  exact ⟨List.prefix_append _ _, by simp⟩

/-- A directory whose name a way does not know. -/
theorem exists_fresh (ps : List (List Char)) :
    ∃ root r, r ∉ ps ∧ ∀ current, placeOf current root = [r] := by
  obtain ⟨r, hslash, hmem, hname⟩ :
      ∃ r : List Char, '/' ∉ r ∧ r ∉ ps ∧ ∃ c ∈ r, c ≠ '.' := by
    refine ⟨List.replicate (ps.flatten.length + 1) 'r', ?_, fun hr => ?_, 'r', ?_, by decide⟩
    · rw [List.mem_replicate]
      exact fun h => absurd h.2 (by decide)
    · have hlen := (List.sublist_flatten_of_mem hr).length_le
      rw [List.length_replicate] at hlen
      omega
    · rw [List.replicate_succ]
      exact List.mem_cons_self
  refine ⟨String.ofList ('/' :: r), r, hmem, fun current => ?_⟩
  rw [placeOf, String.toList_ofList, isAbsolute, List.head?_cons, beq_self_eq_true, if_pos rfl,
    splitOn, if_pos rfl, splitOn_of_not_mem hslash, walk_cons, walk_cons, walk_nil,
    (enter_name hname).1]
  rfl

/-- The paths that lead below every directory that they are seen from. -/
theorem below_join_iff {way : List (List Char)} {seen : String → String} {absolute : Bool}
    (habs : absolute = true → ∃ pieces ⊆ way, ∀ current root,
      placeOf current (seen root) = walk [] pieces)
    (hrel : absolute = false → ∀ current root,
      placeOf current (seen root) = walk (placeOf current root) way) :
    (∀ current root, Below current root (seen root)) ↔ absolute = false ∧ StaysBelow way := by
  constructor
  · intro h
    obtain ⟨root, r, hr, hplace⟩ := exists_fresh way
    have hbelow := h [] root
    rw [Below, AtOrBelow, hplace] at hbelow
    cases absolute with
    | true =>
      obtain ⟨pieces, hsub, hseen⟩ := habs rfl
      rw [hseen] at hbelow
      exact absurd (hbelow.1.subset (List.mem_singleton_self r))
        (not_mem_walk List.not_mem_nil fun hp => hr (hsub hp))
    | false =>
      rw [hrel rfl, hplace] at hbelow
      exact ⟨rfl, staysBelow_of_walk hr hbelow⟩
  · rintro ⟨rfl, hway⟩ current root
    rw [Below, AtOrBelow, hrel rfl]
    exact hway.walk _

end Path
end LintGate
