import Mathlib.Algebra.Group.Pi.Basic
import LintGate.Proofs.Registry
import LintGate.Proofs.Sandbox.Account

/-!
# Every turn keeps the balance

A request is about one container at most.  The turn of a program that keeps its custody
leaves the account of that container balanced, and those of all others as they are.

## Main definitions

* `Balanced` — the account of any container, created or not.
* `Request.subject?` — the container that a request is about.

## Main results

* `Story.note_of_subject_ne`, `Custody.part_next_of_subject_ne`, `Pool.cell?_reply` — what
  a request leaves of the other containers.
* `Balanced.reply` — a turn that custody permits keeps the balance of every container.
-/

namespace LintGate

/-- The account of any container; there is nothing to tell of one that was not created. -/
def Balanced : Option Cell → Story → (Part → Nat) → Prop
  | none, h, n => h = {} ∧ n = 0
  | some x, h, n => Account x h n

section Frame

variable {k : Custody} {r : Request} {x : r.Answer} {c : Container}

/-- The container that a request is about. -/
def Request.subject? : Request → Option Container
  | .run cmd => cmd.removalOf?.or cmd.startOf?
  | .registry op => op.subject?
  | _ => none

theorem Command.startOf?_of_removalOf? {cmd : Command} (h : cmd.removalOf? = some c) :
    cmd.startOf? = none := by
  unfold removalOf? at h
  split at h
  · next hargs => simp [startOf?, hargs]
  · exact absurd h (by simp)

/-- A story goes on only with requests about its container. -/
theorem Story.note_of_subject_ne {h : Story} {i : Nat} (hr : r.subject? ≠ some c) :
    h.note c ⟨i, r, x⟩ = h := by
  cases r with
  | run cmd =>
    have hremoval : cmd.removalOf? ≠ some c := fun he => hr (by simp [Request.subject?, he])
    have hstart : cmd.startOf? ≠ some c := by
      intro he
      cases hc : cmd.removalOf? with
      | none => exact hr (by simp [Request.subject?, hc, he])
      | some c' => simp [Command.startOf?_of_removalOf? hc] at he
    simp [note, noteRun, hremoval, hstart]
  | registry op =>
    cases op <;> simp_all [note, Request.subject?, Registry.Op.subject?]
  | _ => rfl

/-- What a program has of a container changes only with requests about it. -/
theorem Custody.part_next_of_subject_ne (hk : k.permits r) (hr : r.subject? ≠ some c) :
    (k.next r x).part c = k.part c := by
  obtain ⟨s, d, a⟩ := k
  funext p
  -- An answer changes handles of the request's container and duties about it only.
  cases r with
  | run cmd =>
    cases d with
    | free => rfl
    | start c' =>
      have hc : c' ≠ c := fun he => hr (by simp [Request.subject?, hk.1, hk.2, he])
      cases hx : ranWell x <;> cases p <;> simp [part, next, Duty.part, hx, hc]
    | remove c' =>
      have hremoval : cmd.removalOf? = some c' := hk
      have hc : c' ≠ c := fun he => hr (by simp [Request.subject?, hremoval, he])
      cases p <;> simp [part, next, Duty.part, hc]
    | _ => exact hk.elim
  | token =>
    cases d with
    | free => cases p <;> rfl
    | _ => exact hk.elim
  | registry op =>
    have hop (c' : Container) (he : op.subject? = some c') : c' ≠ c :=
      fun hc => hr (hc ▸ he)
    cases op with
    | create c' =>
      have hc := hop c' rfl
      cases d with
      | create t => cases p <;> simp [part, next, Duty.part, hc, hc.symm]
      | _ => exact hk.elim
    | markStarted c' =>
      have hc := hop c' rfl
      cases d with
      | mark c'' =>
        obtain rfl : c' = c'' := hk.1
        cases x <;> cases p <;> simp [part, next, Duty.part, hc]
      | _ => exact hk.elim
    | claim c' =>
      have hc := hop c' rfl
      cases d with
      | free => cases x <;> cases p <;> simp [part, next, Duty.part, hc]
      | claim c'' =>
        obtain rfl : c' = c'' := hk
        cases x <;> cases p <;> simp [part, next, Duty.part, hc]
      | _ => exact hk.elim
    | acquire c' =>
      have hc := hop c' rfl
      cases x <;> cases p <;> simp [part, next, hc.symm]
    | release c' =>
      have hc := hop c' rfl
      cases d with
      | free =>
        cases x <;> cases p <;>
          simp [part, next, Duty.part, hc, Multiset.count_erase_of_ne hc.symm]
      | _ => exact hk.elim
    | _ => rfl
  | _ => rfl

/-- The cell of a container changes only with requests about it. -/
theorem Pool.cell?_reply {ρ : Type} {w : Pool ρ} {env : Environment} {reg : Registry}
    {drawn : List String} (h : w.reply env r = some (x, reg, drawn)) (hr : r.subject? ≠ some c) :
    reg.cell? c = w.registry.cell? c := by
  cases r with
  | registry op =>
    obtain ⟨-, rfl, -⟩ := Pool.reply_registry h
    exact Registry.cell?_apply_of_ne hr
  | token => rw [(Pool.reply_token h).2.1]
  | _ => rw [(Pool.reply_other h (by simp) (by simp)).1]

/-- A container that was made is in the registry for good. -/
theorem Pool.isSome_cell?_reply {ρ : Type} {w : Pool ρ} {env : Environment} {reg : Registry}
    {drawn : List String} (h : w.reply env r = some (x, reg, drawn))
    (hc : (w.registry.cell? c).isSome = true) : (reg.cell? c).isSome = true := by
  cases r with
  | registry op =>
    obtain ⟨-, rfl, -⟩ := Pool.reply_registry h
    exact Registry.isSome_cell?_apply hc
  | token => rwa [(Pool.reply_token h).2.1]
  | _ => rwa [(Pool.reply_other h (by simp) (by simp)).1]

end Frame

namespace Balanced

variable {cell : Option Cell} {h : Story} {m : Part → Nat} {k : Custody} {c : Container}

/-- A container that someone holds or owes something to was created. -/
theorem exists_cell {p : Part} (hb : Balanced cell h (m + k.part c)) (hp : 0 < k.part c p) :
    ∃ x, cell = some x ∧ Account x h (m + k.part c) := by
  cases cell with
  | none =>
    have := congrFun hb.2 p
    simp only [Pi.add_apply, Pi.zero_apply] at this
    omega
  | some x => exact ⟨x, rfl, hb⟩

/-- A turn that has nothing to do with a container. -/
theorem frame {k' : Custody} {h' : Story} {cell' : Option Cell}
    (hb : Balanced cell h (m + k.part c)) (hcell : cell' = cell) (hh : h' = h)
    (hk : k'.part c = k.part c) : Balanced cell' h' (m + k'.part c) := by
  rw [hcell, hh, hk]
  exact hb

/-- A command that custody permits keeps the balance. -/
theorem run {cmd : Command} {x : Except OsFault Output} (hk : k.permits (.run cmd))
    (hc : (Request.run cmd).subject? = some c) (hb : Balanced cell h (m + k.part c)) :
    Balanced cell (h.noteRun c cmd x) (m + (k.next (.run cmd) x).part c) := by
  obtain ⟨s, d, a⟩ := k
  cases d with
  | free => exact absurd hc (by simp [Request.subject?, hk.1, hk.2])
  | start c' =>
    obtain ⟨hstart, hremoval⟩ := hk
    obtain rfl : c' = c := by simpa [Request.subject?, hremoval, hstart] using hc
    obtain ⟨y, rfl, hy⟩ := hb.exists_cell (p := .start) (by simp [Custody.part, Duty.part])
    cases hx : ranWell x with
    | true =>
      simp only [Story.noteRun, Custody.next, hstart, hremoval, hx]
      exact hy.startWell
    | false =>
      simp only [Story.noteRun, Custody.next, hstart, hremoval, hx]
      exact hy.startFailed
  | remove c' =>
    have hremoval : cmd.removalOf? = some c' := hk
    obtain rfl : c' = c := by simpa [Request.subject?, hremoval] using hc
    obtain ⟨y, rfl, hy⟩ := hb.exists_cell (p := .remove) (by simp [Custody.part, Duty.part])
    rw [Story.noteRun, if_pos hremoval]
    exact hy.remove
  | _ => exact hk.elim

variable {reg : Registry} {i : Nat}

/-- A claim is followed by a removal if it is the first. -/
theorem claim {s : Multiset Container} {a : Option Container} {d : Duty}
    (hd : d = .free ∧ c ∈ s ∨ d = .claim c)
    (hb : Balanced (reg.cell? c) h (m + Custody.part ⟨s, d, a⟩ c)) :
    Balanced ((reg.apply (.claim c)).2.cell? c) { h with claimed := true }
      (m + Custody.part
        ⟨s, if (reg.apply (.claim c)).1 = true then .remove c else .free, a⟩ c) := by
  have hpart : ∃ p, 0 < Custody.part ⟨s, d, a⟩ c p := by
    rcases hd with ⟨rfl, hs⟩ | rfl
    · exact ⟨.handle, Multiset.count_pos.mpr hs⟩
    · exact ⟨.claim, by simp [Custody.part, Duty.part]⟩
  obtain ⟨p, hp⟩ := hpart
  obtain ⟨x, hx, hacc⟩ := hb.exists_cell hp
  have hanswer : (reg.apply (.claim c)).1 = (x.phase != .removed) := by simp [Registry.apply, hx]
  rw [Registry.cell?_apply_self (by simp) rfl hx, hanswer]
  have hd' : d = .free ∨ d = .claim c := hd.imp And.left id
  by_cases hphase : x.phase = .removed
  · rw [if_neg (by simp [hphase])]
    exact hacc.claimAgain hd' hphase
  · rw [if_pos (by simp [hphase])]
    exact hacc.claimFirst hd' hphase

/-- A start that is recorded too late is followed by one more removal. -/
theorem markStarted {s : Multiset Container} {a b : Option Container}
    (hb : Balanced (reg.cell? c) h (m + Custody.part ⟨s, .mark c, a⟩ c)) :
    Balanced ((reg.apply (.markStarted c)).2.cell? c) h.mark
      (m + Custody.part
        ⟨s, if (reg.apply (.markStarted c)).1 = true then .free else .remove c, b⟩ c) := by
  obtain ⟨x, hx, hacc⟩ := hb.exists_cell (p := .mark) (by simp [Custody.part, Duty.part])
  rw [Registry.cell?_apply_self (by simp) rfl hx, Registry.apply_markStarted_fst, hx]
  by_cases hphase : x.phase = .starting
  · rw [if_pos (by simp [hphase]), Registry.Op.change, if_pos hphase]
    exact hacc.markInTime hphase
  · rw [if_neg (by simp [hphase]), Registry.Op.change, if_neg hphase]
    exact hacc.markLate hphase

/-- A place is taken only if there was one. -/
theorem acquire {s : Multiset Container} {a : Option Container}
    (hb : Balanced (reg.cell? c) h (m + Custody.part ⟨s, .free, a⟩ c)) :
    Balanced ((reg.apply (.acquire c)).2.cell? c) h
      (m + Custody.part
        ⟨if (reg.apply (.acquire c)).1 = true then c ::ₘ s else s, .free, a⟩ c) := by
  rw [Registry.apply_acquire_fst]
  cases hx : reg.cell? c with
  | none =>
    rw [Registry.cell?_apply (by simp), hx, Option.any_none, Option.map_none, ite_self]
    rw [hx] at hb
    exact hb
  | some x =>
    rw [Registry.cell?_apply_self (by simp) rfl hx]
    rw [hx] at hb
    by_cases hheld : 0 < x.handles
    · rw [if_pos (by simpa using hheld), Registry.Op.change, if_pos hheld]
      exact Account.acquire hb
    · rw [if_neg (by simpa using hheld), Registry.Op.change, if_neg hheld]
      exact hb

/-- Who gives up the last place has to claim the removal. -/
theorem release {s : Multiset Container} {a : Option Container} (hs : c ∈ s)
    (hb : Balanced (reg.cell? c) h (m + Custody.part ⟨s, .free, a⟩ c)) :
    Balanced ((reg.apply (.release c)).2.cell? c) h
      (m + Custody.part
        ⟨s.erase c, if (reg.apply (.release c)).1 = true then .claim c else .free, a⟩ c) := by
  obtain ⟨x, hx, hacc⟩ := hb.exists_cell (p := .handle) (Multiset.count_pos.mpr hs)
  have hanswer : (reg.apply (.release c)).1 = (x.handles == 1) := by simp [Registry.apply, hx]
  rw [Registry.cell?_apply_self (by simp) rfl hx, hanswer]
  simp only [beq_iff_eq]
  exact hacc.release hs

/-- A step on the registry that custody permits keeps the balance. -/
theorem registry {op : Registry.Op} (hk : k.permits (.registry op))
    (hc : op.subject? = some c) (hfresh : op = .create c → reg.cell? c = none)
    (hb : Balanced (reg.cell? c) h (m + k.part c)) :
    Balanced ((reg.apply op).2.cell? c) (h.note c ⟨i, .registry op, (reg.apply op).1⟩)
      (m + (k.next (.registry op) (reg.apply op).1).part c) := by
  obtain ⟨s, d, a⟩ := k
  -- For each step custody leaves one duty, or two, that a program can have.
  cases op with
  | create c' =>
    obtain rfl : c' = c := by simpa [Registry.Op.subject?] using hc
    cases d with
    | create t =>
      have hnone := hfresh rfl
      rw [Registry.cell?_create, hnone, if_pos rfl]
      rw [hnone] at hb
      obtain ⟨rfl, hzero⟩ := hb
      have hm : m = 0 := funext fun p => (Nat.add_eq_zero_iff.mp (congrFun hzero p)).1
      have hs : s.count c' = 0 := (Nat.add_eq_zero_iff.mp (congrFun hzero .handle)).2
      rw [hm, zero_add]
      exact Account.created hs
    | _ => exact hk.elim
  | enlist c' =>
    have hcell : (reg.apply (.enlist c')).2.cell? c = reg.cell? c := rfl
    exact hb.frame hcell rfl rfl
  | isRemoved c' => exact hb.frame rfl rfl rfl
  | drain => exact absurd hc (by simp [Registry.Op.subject?])
  | claim c' =>
    obtain rfl : c' = c := by simpa [Registry.Op.subject?] using hc
    rw [Story.note, if_pos rfl]
    cases d with
    | free => exact hb.claim (Or.inl ⟨rfl, hk⟩)
    | claim c'' =>
      obtain rfl : c' = c'' := hk
      exact hb.claim (Or.inr rfl)
    | _ => exact hk.elim
  | markStarted c' =>
    obtain rfl : c' = c := by simpa [Registry.Op.subject?] using hc
    rw [Story.note, if_pos rfl]
    cases d with
    | mark c'' =>
      obtain rfl : c' = c'' := hk.1
      have hmark (a' : Option Container) := hb.markStarted (b := a')
      cases hx : (reg.apply (.markStarted c')).1 with
      | true =>
        have h := hmark (some c')
        rw [hx] at h
        exact h
      | false =>
        have h := hmark a
        rw [hx] at h
        exact h
    | _ => exact hk.elim
  | acquire c' =>
    obtain rfl : c' = c := by simpa [Registry.Op.subject?] using hc
    cases d with
    | free =>
      have h := hb.acquire
      cases hx : (reg.apply (.acquire c')).1 <;> rw [hx] at h <;> exact h
    | _ => exact hk.elim
  | release c' =>
    obtain rfl : c' = c := by simpa [Registry.Op.subject?] using hc
    cases d with
    | free => exact hb.release hk
    | _ => exact hk.elim

variable {ρ : Type} {w : Pool ρ} {env : Environment}

/-- **The turn of a program that keeps its custody** leaves every container balanced. -/
theorem reply {r : Request} {x : r.Answer} {drawn : List String} (hk : k.permits r)
    (hr : w.reply env r = some (x, reg, drawn))
    (hfresh : ∀ c, r = .registry (.create c) → w.registry.cell? c = none)
    (hb : Balanced (w.registry.cell? c) h (m + k.part c)) :
    Balanced (reg.cell? c) (h.note c ⟨i, r, x⟩) (m + (k.next r x).part c) := by
  by_cases hc : r.subject? = some c
  · cases r with
    | run cmd =>
      obtain ⟨rfl, -⟩ := Pool.reply_other hr (by simp) (by simp)
      exact hb.run hk hc
    | registry op =>
      obtain ⟨rfl, rfl, -⟩ := Pool.reply_registry hr
      exact hb.registry hk hc fun he => hfresh c (congrArg _ he)
    | _ => exact absurd hc (by simp [Request.subject?])
  · exact hb.frame (Pool.cell?_reply hr hc) (Story.note_of_subject_ne hc)
      (Custody.part_next_of_subject_ne hk hc)

/-- A start that is recorded in time is recorded before any removal. -/
theorem assured_markStarted (hk : k.permits (.registry (.markStarted c)))
    (hb : Balanced (reg.cell? c) h (m + k.part c))
    (hx : (reg.apply (.markStarted c)).1 = true) :
    h.mark.marked = true ∧ h.mark.early = false := by
  obtain ⟨s, d, a⟩ := k
  cases d with
  | mark c' =>
    obtain ⟨rfl, -⟩ := hk
    obtain ⟨y, hy, hacc⟩ := hb.exists_cell (p := .mark) (by simp [Custody.part, Duty.part])
    obtain ⟨hmarked, -, -, -⟩ := hacc.unmarked
    have hphase : y.phase = .starting := by
      simpa [Registry.apply_markStarted_fst, hy] using hx
    have hclaimed : h.claimed = false := by
      refine Bool.eq_false_iff.mpr fun hc => ?_
      rw [hacc.removed.mpr hc] at hphase
      exact absurd hphase (by decide)
    exact ⟨rfl, by simp [Story.mark, hmarked, hclaimed]⟩
  | _ => exact hk.elim

/-- Who is assured of a container knows that no removal of it was too early. -/
theorem assured_reply {r : Request} {x : r.Answer} {drawn : List String} (hk : k.permits r)
    (hr : w.reply env r = some (x, reg, drawn))
    (hb : Balanced (w.registry.cell? c) h (m + k.part c))
    (ha : k.assured = some c → h.marked = true ∧ h.early = false)
    (hc : (k.next r x).assured = some c) :
    (h.note c ⟨i, r, x⟩).marked = true ∧ (h.note c ⟨i, r, x⟩).early = false := by
  by_cases hsame : (k.next r x).assured = k.assured
  · exact Story.assured_note c _ (ha (hsame ▸ hc))
  · cases r with
    | run cmd =>
      obtain ⟨s, d, a⟩ := k
      cases d <;> exact absurd rfl hsame
    | registry op =>
      obtain ⟨rfl, rfl, -⟩ := Pool.reply_registry hr
      cases op with
      | markStarted c' =>
        cases hx : (w.registry.apply (.markStarted c')).1 with
        | true =>
          rw [hx] at hc
          obtain rfl : c' = c := by simpa [Custody.next] using hc
          rw [Story.note, if_pos rfl]
          exact hb.assured_markStarted hk hx
        | false => rw [hx] at hsame; exact absurd rfl hsame
      | acquire c' =>
        cases hx : (w.registry.apply (.acquire c')).1 <;> rw [hx] at hsame <;>
          exact absurd rfl hsame
      | _ => exact absurd rfl hsame
    | _ => exact absurd rfl hsame

end Balanced

end LintGate
