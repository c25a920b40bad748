import LintGate.Registry

/-!
# What a step leaves of the cells

A step changes the cell of its own container only, and only a creation makes a new one.

## Main definitions

* `Registry.Op.subject?`, `Registry.Op.change` — the container of a step, and what the step
  does to its cell.

## Main results

* `Registry.cell?_apply`, `Registry.cell?_create` — the cells after a step.
* `Registry.cells_apply` — the containers there are after a step.
-/

namespace LintGate
namespace Registry

/-- The container that a step is about. -/
def Op.subject? : Op → Option Container
  | .create c | .enlist c | .claim c | .markStarted c | .isRemoved c | .acquire c
  | .release c => some c
  | .drain => none

/-- What a step does to the cell of its container. -/
def Op.change : Op → Cell → Cell
  | .claim _, x => { x with phase := .removed }
  | .markStarted _, x => if x.phase = .starting then { x with phase := .running } else x
  | .acquire _, x => if 0 < x.handles then { x with handles := x.handles + 1 } else x
  | .release _, x => { x with handles := x.handles - 1 }
  | _, x => x

variable {r : Registry} {c c' : Container}

theorem container_of_cell? {x : Cell} (h : r.cell? c = some x) : x.container = c := by
  simpa using List.find?_some h

theorem cell?_modify {f : Cell → Cell} (hf : ∀ x, (f x).container = x.container) :
    (r.modify c f).cell? c' = if c = c' then (r.cell? c').map f else r.cell? c' := by
  have hsame : ((fun x : Cell => x.container == c') ∘ fun x => if x.container = c then f x else x) =
      fun x => x.container == c' := by
    funext x
    dsimp only [Function.comp_apply]
    split
    · rw [hf]
    · rfl
  unfold modify cell?
  rw [List.find?_map, hsame]
  cases hx : r.cells.find? fun x => x.container == c' with
  | none => simp
  | some x =>
    have hc : x.container = c' := container_of_cell? hx
    by_cases he : c = c'
    · simp [he, hc]
    · have hne : x.container ≠ c := fun h => he (h.symm.trans hc)
      simp [he, hne]

/-- A new cell is found if there was none of its container. -/
theorem cell?_create :
    (r.apply (.create c)).2.cell? c' =
      (r.cell? c').or (if c = c' then some ⟨c, .starting, 1⟩ else none) := by
  have hnew : (r.apply (.create c)).2.cells = r.cells ++ [⟨c, .starting, 1⟩] := rfl
  unfold cell?
  rw [hnew, List.find?_append]
  by_cases he : c = c'
  · simp [he]
  · simp [he]

theorem cells_modify {f : Cell → Cell} (hf : ∀ x, (f x).container = x.container) :
    (r.modify c f).cells.map Cell.container = r.cells.map Cell.container := by
  unfold modify
  rw [List.map_map]
  refine List.map_congr_left fun x _ => ?_
  dsimp only [Function.comp_apply]
  split
  · exact hf x
  · rfl

/-- A step other than a creation changes the cell of its container, or nothing. -/
theorem apply_cases {op : Op} (hop : ∀ c, op ≠ .create c) :
    (∃ c, op.subject? = some c ∧ ∃ f : Cell → Cell, (∀ x, (f x).container = x.container) ∧
      (∀ x, r.cell? c = some x → f x = op.change x) ∧
      (r.apply op).2 = r.modify c f) ∨
    (∀ c, op.subject? = some c → ∀ x, r.cell? c = some x → op.change x = x) ∧
      (r.apply op).2.cells = r.cells := by
  cases op with
  | create c => exact absurd rfl (hop c)
  | enlist c => exact Or.inr ⟨fun _ _ _ _ => rfl, rfl⟩
  | isRemoved c => exact Or.inr ⟨fun _ _ _ _ => rfl, rfl⟩
  | drain => exact Or.inr ⟨fun _ _ _ _ => rfl, rfl⟩
  | claim c => exact Or.inl ⟨c, rfl, (Op.claim c).change, fun _ => rfl, fun _ _ => rfl, rfl⟩
  | release c => exact Or.inl ⟨c, rfl, (Op.release c).change, fun _ => rfl, fun _ _ => rfl, rfl⟩
  | markStarted c =>
    simp only [apply]
    split
    · next hstart =>
      refine Or.inl ⟨c, rfl, fun x => { x with phase := .running }, fun _ => rfl,
        fun x hx => ?_, rfl⟩
      rw [hx] at hstart
      simp_all [Op.change]
    · next hstart =>
      refine Or.inr ⟨fun c' hc' x hx => ?_, rfl⟩
      cases hc'
      rw [hx] at hstart
      simp_all [Op.change]
  | acquire c =>
    simp only [apply]
    split
    · next hheld =>
      refine Or.inl ⟨c, rfl, fun x => { x with handles := x.handles + 1 }, fun _ => rfl,
        fun x hx => ?_, rfl⟩
      rw [hx] at hheld
      simp_all [Op.change]
    · next hheld =>
      refine Or.inr ⟨fun c' hc' x hx => ?_, rfl⟩
      cases hc'
      rw [hx] at hheld
      simp_all [Op.change]

/-- **The cells after a step** that creates none. -/
theorem cell?_apply {op : Op} (hop : ∀ c, op ≠ .create c) :
    (r.apply op).2.cell? c' =
      if op.subject? = some c' then (r.cell? c').map op.change else r.cell? c' := by
  rcases apply_cases (r := r) hop with ⟨c, hc, f, hf, hchange, he⟩ | ⟨hsame, he⟩
  · rw [he, cell?_modify hf, hc]
    by_cases hcc : c = c'
    · subst hcc
      rw [if_pos rfl, if_pos rfl]
      cases hx : r.cell? c with
      | none => rfl
      | some x => rw [Option.map_some, Option.map_some, hchange x hx]
    · rw [if_neg hcc, if_neg fun h => hcc (Option.some.inj h)]
  · have hcell : (r.apply op).2.cell? c' = r.cell? c' := by rw [cell?, he]; rfl
    rw [hcell]
    split
    · next hc =>
      cases hx : r.cell? c' with
      | none => rfl
      | some x => rw [Option.map_some, hsame c' hc x hx]
    · rfl

theorem cell?_apply_self {op : Op} {x : Cell} (hop : ∀ c, op ≠ .create c)
    (hc : op.subject? = some c) (hx : r.cell? c = some x) :
    (r.apply op).2.cell? c = some (op.change x) := by
  rw [cell?_apply hop, if_pos hc, hx, Option.map_some]

/-- A step leaves the cells of other containers as they are. -/
theorem cell?_apply_of_ne {op : Op} (hc : op.subject? ≠ some c) :
    (r.apply op).2.cell? c = r.cell? c := by
  cases op with
  | create c' =>
    have hne : c' ≠ c := fun he => hc (congrArg some he)
    rw [cell?_create, if_neg hne, Option.or_none]
  | _ => rw [cell?_apply (by simp), if_neg hc]

/-- A cell that is in a registry stays in it. -/
theorem isSome_cell?_apply {op : Op} (h : (r.cell? c).isSome = true) :
    ((r.apply op).2.cell? c).isSome = true := by
  cases op with
  | create c' =>
    obtain ⟨x, hx⟩ := Option.isSome_iff_exists.mp h
    rw [cell?_create, hx]
    rfl
  | _ =>
    rw [cell?_apply (by simp)]
    split
    · rwa [Option.isSome_map]
    · exact h

/-- Which containers there are is the same after a step that creates none. -/
theorem cells_apply {op : Op} (hop : ∀ c, op ≠ .create c) :
    (r.apply op).2.cells.map Cell.container = r.cells.map Cell.container := by
  rcases apply_cases (r := r) hop with ⟨c, -, f, hf, -, he⟩ | ⟨-, he⟩
  · rw [he, cells_modify hf]
  · rw [he]

/-- What a step that asks for something of a cell answers. -/
theorem apply_markStarted_fst :
    (r.apply (.markStarted c)).1 = (r.cell? c).any (·.phase == .starting) := by
  simp only [apply]
  split
  · next h => exact h.symm
  · next h => exact (Bool.not_eq_true _ ▸ h).symm

theorem apply_acquire_fst : (r.apply (.acquire c)).1 = (r.cell? c).any (0 < ·.handles) := by
  simp only [apply]
  split
  · next h => exact h.symm
  · next h => exact (Bool.not_eq_true _ ▸ h).symm

end Registry
end LintGate
