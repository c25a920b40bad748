import LintGate.Proofs.Registry
import LintGate.Proofs.Sandbox.Custody

/-!
# The names of containers

A container is named after a token that its maker drew.  As tokens are handed out once, no
container is made twice.

## Main definitions

* `Custody.tickets`, `Registry.named` — the containers that a token is still to name, and
  those that it names.

## Main results

* `Custody.tickets_reply` — no token names more containers than it was drawn.
* `Registry.cell?_of_named` — a container that is still to be made has no cell.
-/

namespace LintGate

/-- How many containers a program is still to make with the name of a token. -/
def Custody.tickets (t : String) (k : Custody) : Nat := if k.duty = .create t then 1 else 0

/-- How many containers have the name of a token. -/
def Registry.named (t : String) (r : Registry) : Nat :=
  (r.cells.map Cell.container).countP (·.name = gateName t)

theorem gateName_inj {t t' : String} : gateName t = gateName t' ↔ t = t' :=
  String.append_right_inj "shellcheck-gate-"

variable {ρ : Type} {w : Pool ρ} {env : Environment} {reg : Registry} {drawn : List String}
  {k : Custody} {r : Request} {x : r.Answer} {m : Nat} {t : String}

theorem Registry.named_create {c : Container} :
    (reg.apply (.create c)).2.named t = reg.named t + if c.name = gateName t then 1 else 0 := by
  have hcells : (reg.apply (.create c)).2.cells = reg.cells ++ [⟨c, .starting, 1⟩] := rfl
  simp [named, hcells, List.countP_append]

theorem Registry.named_apply {op : Op} (hop : ∀ c, op ≠ .create c) :
    (reg.apply op).2.named t = reg.named t := by
  rw [named, cells_apply hop, named]

/-- A container that is still to be made has no cell. -/
theorem Registry.cell?_of_named {c : Container} (hr : reg.named t = 0)
    (hc : c.name = gateName t) : reg.cell? c = none := by
  rw [named, List.countP_eq_zero] at hr
  refine List.find?_eq_none.mpr fun x hx he => hr x.container (List.mem_map_of_mem hx) ?_
  rw [beq_iff_eq] at he
  simp [he, hc]

/-- Only who draws a token is to make a container. -/
theorem Custody.tickets_next_le (hr : r ≠ .token) : (k.next r x).tickets t ≤ k.tickets t := by
  have hzero {s : Multiset Container} {d : Duty} {a : Option Container}
      (hd : ∀ t, d ≠ .create t) : Custody.tickets t ⟨s, d, a⟩ = 0 := if_neg (hd t)
  obtain ⟨s, d, a⟩ := k
  cases r with
  | token => exact absurd rfl hr
  | run cmd =>
    cases d with
    | start c =>
      refine le_of_eq_of_le (hzero ?_) (Nat.zero_le _)
      cases ranWell x <;> simp
    | _ => exact le_of_eq_of_le (hzero (by simp)) (Nat.zero_le _)
  | registry op =>
    cases op with
    | create c => exact le_of_eq_of_le (hzero (by simp)) (Nat.zero_le _)
    | markStarted c => cases x <;> exact le_of_eq_of_le (hzero (by simp)) (Nat.zero_le _)
    | claim c => cases x <;> exact le_of_eq_of_le (hzero (by simp)) (Nat.zero_le _)
    | release c => cases x <;> exact le_of_eq_of_le (hzero (by simp)) (Nat.zero_le _)
    | acquire c => cases x <;> exact le_refl _
    | _ => exact le_refl _
  | _ => exact le_refl _

/-- **A token names at most one container**, as it is handed out once. -/
theorem Custody.tickets_reply (hk : k.permits r) (hr : w.reply env r = some (x, reg, drawn))
    (ht : m + k.tickets t + w.registry.named t ≤ w.drawn.count t) :
    m + (k.next r x).tickets t + reg.named t ≤ drawn.count t := by
  by_cases htoken : r = .token
  · subst htoken
    obtain ⟨-, rfl, rfl⟩ := Pool.reply_token hr
    have hnext : (k.next .token x).tickets t = if x = t then 1 else 0 := by
      simp [tickets, next]
    rw [hnext, List.count_cons]
    simp only [beq_iff_eq]
    omega
  · have hle : (k.next r x).tickets t ≤ k.tickets t := tickets_next_le htoken
    cases r with
    | registry op =>
      obtain ⟨rfl, rfl, rfl⟩ := Pool.reply_registry hr
      cases op with
      | create c =>
        obtain ⟨s, d, a⟩ := k
        cases d with
        | create t' =>
          have hc : c.name = gateName t' := hk
          rw [Registry.named_create, hc]
          have hspent : (Custody.next ⟨s, .create t', a⟩ (.registry (.create c))
              (w.registry.apply (.create c)).1).tickets t = 0 := if_neg (by simp [next])
          have hticket : tickets t ⟨s, .create t', a⟩ = if t' = t then 1 else 0 := by
            simp [tickets]
          simp only [gateName_inj]
          omega
        | _ => exact hk.elim
      | _ =>
        rw [Registry.named_apply (by simp)]
        omega
    | token => exact absurd rfl htoken
    | _ =>
      obtain ⟨rfl, rfl⟩ := Pool.reply_other hr (by simp) (by simp)
      omega

end LintGate
