import LintGate.Proofs.Interrupt.Patience

/-!
# Clean-ups that find nothing

A clean-up that finds no container leaves the run to itself.  Then the removal of a container is
claimed once, by whoever gave up its last place, so a container that was removed is gone.

## Main definitions

* `World.claims` — how often the removal of a container was claimed, or is about to be.
* `World.Calm`, `World.Found` — worlds in which nobody took hold of a container, and those in
  which the clean-up did.

## Main results

* `World.Calm.step` — a turn keeps a world calm, unless the clean-up finds a container.
* `World.Calm.isGone` — **in a calm world a container that was removed is gone.**
-/

namespace LintGate

open Program

namespace World

/-- How often the removal of a container was claimed, or is about to be. -/
def claims (w : World) (c : Container) : Nat :=
  (w.threads.map fun p => (p.claims c).toNat).sum + (w.story c).claimed.toNat

/-- Whether a container is in the registry and no place holds it. -/
def isFree (r : Registry) (c : Container) : Bool := (r.cell? c).any (·.handles == 0)

/-- Worlds in which nobody took hold of a container that someone else made. -/
structure Calm (w : World) : Prop where
  /-- Only the first program, the run, never says whether it took hold of a container. -/
  patient : ∀ (i : Nat) (p : Program Result), w.threads[i]? = some p →
    p.Patient fun p' : Program Result => i ≠ 0 ∧ p'.Ends Result.IsFind
  once : ∀ c, w.claims c ≤ 1
  /-- While someone holds a container, nobody claims its removal. -/
  free : ∀ c, isFree w.registry c = false → w.claims c = 0
  early : ∀ c, (w.story c).early = false

/-- Worlds in which a program took hold of a container, and will say so. -/
def Found (w : World) : Prop :=
  ∃ i p, i ≠ 0 ∧ w.threads[i]? = some p ∧ p.Ends Result.IsFind

variable {env : Environment} {w w' : World} {ps : Cast} {c : Container} {i : Nat}

/-- A container that no place holds is never held again. -/
theorem isFree_apply {r : Registry} {op : Registry.Op} (h : isFree r c = true) :
    isFree (r.apply op).2 c = true := by
  obtain ⟨x, hx, hhandles⟩ := (Option.any_eq_true _ _).mp h
  have hzero : x.handles = 0 := by simpa using hhandles
  have hchange : (op.change x).handles = 0 := by
    cases op with
    | markStarted c' =>
      unfold Registry.Op.change
      dsimp only
      split <;> exact hzero
    | acquire c' => simp [Registry.Op.change, hzero]
    | release c' => simp [Registry.Op.change, hzero]
    | _ => exact hzero
  unfold isFree
  cases op with
  | create c' =>
    rw [Registry.cell?_create, hx]
    exact hhandles
  | _ =>
    rw [Registry.cell?_apply (by simp), hx]
    split
    · simpa using hchange
    · exact hhandles

/-- What a turn answers leaves a free container free. -/
theorem isFree_reply {r : Request} {x : r.Answer} {registry : Registry} {drawn : List String}
    (hr : w.reply env r = some (x, registry, drawn)) (h : isFree w.registry c = true) :
    isFree registry c = true := by
  cases r with
  | registry op =>
    obtain ⟨-, rfl, -⟩ := Pool.reply_registry hr
    exact isFree_apply h
  | token => rwa [(Pool.reply_token hr).2.1]
  | _ => rwa [(Pool.reply_other hr (by simp) (by simp)).1]

/-- Who gives up the last place held the container, and leaves it free. -/
theorem isFree_of_givesUp {r : Request} {x : r.Answer} {registry : Registry} {drawn : List String}
    (hr : w.reply env r = some (x, registry, drawn)) (h : r.givesUp c x = true) :
    isFree w.registry c = false ∧ isFree registry c = true := by
  cases r with
  | registry op =>
    cases op with
    | release c' =>
      obtain ⟨hc, hx⟩ := Bool.and_eq_true_iff.mp h
      obtain rfl : c' = c := beq_iff_eq.mp hc
      obtain ⟨rfl, rfl, -⟩ := Pool.reply_registry hr
      obtain ⟨y, hy, hone⟩ := (Option.any_eq_true _ _).mp hx
      have hhandles : y.handles = 1 := by simpa using hone
      refine ⟨by simp [isFree, hy, hhandles], ?_⟩
      rw [isFree, Registry.cell?_apply_self (by simp) rfl hy]
      simp [Registry.Op.change, hhandles]
    | _ => cases h
  | _ => cases h

/-- A claim is recorded once it was asked for. -/
theorem claimed_note_le {h : Story} {r : Request} {x : r.Answer}
    (next : r.Answer → Program Result) : (h.note c ⟨i, r, x⟩).claimed.toNat ≤
      ((Program.ask r next).claims c).toNat + h.claimed.toNat := by
  cases r with
  | run cmd =>
    rw [Story.note, Story.claimed_noteRun]
    exact Nat.le_add_left _ _
  | registry op =>
    cases op with
    | claim c' =>
      show (if c' = c then { h with claimed := true } else h).claimed.toNat ≤
        (c' == c).toNat + h.claimed.toNat
      by_cases hc : c' = c
      · rw [if_pos hc, beq_iff_eq.mpr hc]
        exact Nat.le_add_right 1 _
      · rw [if_neg hc]
        exact Nat.le_add_left _ _
    | markStarted c' =>
      show (if c' = c then h.mark else h).claimed.toNat ≤ 0 + h.claimed.toNat
      split <;> exact Nat.le_add_left _ _
    | _ => exact Nat.le_add_left _ _
  | _ => exact Nat.le_add_left _ _

/-- What is recorded of a start that came too late. -/
theorem early_note {h : Story} {r : Request} {x : r.Answer} (hearly : h.early = false)
    (hmark : r = .registry (.markStarted c) → h.claimed = false) :
    (h.note c ⟨i, r, x⟩).early = false := by
  cases r with
  | run cmd =>
    show (h.noteRun c cmd x).early = false
    unfold Story.noteRun
    split
    · exact hearly
    · split <;> exact hearly
  | registry op =>
    cases op with
    | claim c' =>
      show (if c' = c then { h with claimed := true } else h).early = false
      split <;> exact hearly
    | markStarted c' =>
      show (if c' = c then h.mark else h).early = false
      by_cases hc : c' = c
      · subst hc
        rw [if_pos rfl]
        show (if h.marked = true then h.early else h.claimed) = false
        rw [hearly, hmark rfl, ite_self]
      · rw [if_neg hc]
        exact hearly
    | _ => exact hearly
  | _ => exact hearly

/-- Who records a start holds the container. -/
theorem Sound.isFree_of_mark (hw : w.Sound ps) {next : Bool → Program Result}
    (hi : w.threads[i]? = some (.ask (.registry (.markStarted c)) next)) :
    isFree w.registry c = false := by
  obtain ⟨⟨s, d, a⟩, hk⟩ := hw.getElem?_cast hi
  have hmem := List.mem_of_getElem? hk
  have hpermits := (hw.keeps _ hmem).1
  have hcount : 0 < Custody.part ⟨s, d, a⟩ c .handle := by
    cases d with
    | mark c' =>
      obtain ⟨rfl, hheld⟩ := hpermits
      exact Multiset.count_pos.mpr hheld
    | _ => exact hpermits.elim
  obtain ⟨x, hx, hacc, hpos⟩ := hw.exists_account hmem hcount
  rw [isFree, hx, Option.any_some, hacc.handles]
  exact beq_eq_false_iff_ne.mpr hpos.ne'

section Turn

variable {r : Request} {next : r.Answer → Program Result} {x : r.Answer} {registry : Registry}
  {drawn : List String}

/-- What a turn changes in the claims of a container: those of the program whose turn it is, and
what is recorded. -/
theorem claims_turn (c : Container) (x : r.Answer) (registry : Registry) (drawn : List String)
    (hi : w.threads[i]? = some (.ask r next)) :
    ∃ n, w.claims c = n + ((Program.ask r next).claims c).toNat + (w.story c).claimed.toNat ∧
      claims ⟨registry, drawn, w.threads.set i (next x), w.log ++ [⟨i, r, x⟩]⟩ c =
        n + ((next x).claims c).toNat + ((w.story c).note c ⟨i, r, x⟩).claimed.toNat := by
  obtain ⟨n, hn, hset⟩ := sum_map_set (fun p : Program Result => (p.claims c).toNat) hi
  refine ⟨n, by rw [claims, hn], ?_⟩
  rw [claims, hset, Pool.story, Story.ofLog_concat, Pool.story]

/-- Nobody claims more than before if the program whose turn it was does not. -/
theorem claims_turn_le (hi : w.threads[i]? = some (.ask r next))
    (hidle : (next x).claims c = false) :
    claims ⟨registry, drawn, w.threads.set i (next x), w.log ++ [⟨i, r, x⟩]⟩ c ≤ w.claims c := by
  obtain ⟨n, hbefore, hafter⟩ := claims_turn c x registry drawn hi
  have hnote := claimed_note_le (c := c) (h := w.story c) (i := i) (x := x) next
  rw [hbefore, hafter, hidle, Bool.toNat_false]
  omega

end Turn

/-- **A turn keeps a world calm**, unless the clean-up finds a container. -/
theorem Calm.step (hw : w.Sound ps) (hc : w.Calm) (hs : w.step? env i = some w') :
    w'.Calm ∨ w'.Found := by
  obtain ⟨r, next, x, registry, drawn, hi, hr, rfl⟩ := Pool.step?_cases hs
  have hlt : i < w.threads.length := (List.getElem?_eq_some_iff.mp hi).1
  have hpatient := hc.patient i _ hi x
  by_cases hhold : r.takesHold x = true
  · rw [if_pos hhold] at hpatient
    exact Or.inr ⟨i, next x, hpatient.1, List.getElem?_set_self hlt, hpatient.2⟩
  rw [if_neg hhold] at hpatient
  obtain ⟨hclaims, hnext⟩ := hpatient
  have hidle (c : Container) (hgives : r.givesUp c x = false) : (next x).claims c = false :=
    Bool.eq_false_iff.mpr fun h => Bool.false_ne_true (hgives.symm.trans (hclaims c h))
  refine Or.inl ⟨?_, ?_, ?_, ?_⟩
  · intro j p hj
    dsimp only at hj
    by_cases hij : i = j
    · subst hij
      rw [List.getElem?_set_self hlt] at hj
      exact Option.some.inj hj ▸ hnext
    · rw [List.getElem?_set_ne hij] at hj
      exact hc.patient j p hj
  · intro c
    cases hgives : r.givesUp c x with
    | false => exact (claims_turn_le hi (hidle c hgives)).trans (hc.once c)
    | true =>
      -- nobody claimed the removal while the last place was held
      obtain ⟨n, hbefore, hafter⟩ := claims_turn c x registry drawn hi
      have hnone := hc.free c (isFree_of_givesUp hr hgives).1
      have hone := Bool.toNat_le ((next x).claims c)
      have hnote := claimed_note_le (c := c) (h := w.story c) (i := i) (x := x) next
      rw [hafter]
      omega
  · intro c hheld
    have hgives : r.givesUp c x = false := Bool.eq_false_iff.mpr fun h =>
      Bool.false_ne_true (hheld.symm.trans (isFree_of_givesUp hr h).2)
    have hbefore : isFree w.registry c = false := Bool.eq_false_iff.mpr fun h =>
      Bool.false_ne_true (hheld.symm.trans (isFree_reply hr h))
    exact Nat.le_zero.mp ((claims_turn_le hi (hidle c hgives)).trans (hc.free c hbefore).le)
  · intro c
    rw [Pool.story, Story.ofLog_concat]
    refine early_note (hc.early c) fun hmark => ?_
    subst hmark
    have hnone : w.claims c = 0 := hc.free c (hw.isFree_of_mark hi)
    exact Bool.toNat_eq_zero.mp (Nat.add_eq_zero_iff.mp hnone).2

/-- Who is about to take a container down claims its removal, or owes it. -/
theorem claims_or_remove_of_takesDown {p : Program Result} {k : Custody}
    (hp : Keeps Result.leaves p k) (hdown : p.takesDown c = true) :
    p.claims c = true ∨ 0 < k.part c .remove := by
  obtain ⟨s, d, a⟩ := k
  cases p with
  | done x => cases hdown
  | ask r next =>
    cases r with
    | registry op =>
      cases op with
      | claim c' => exact Or.inl hdown
      | _ => cases hdown
    | run cmd =>
      have hcmd : cmd.removalOf? = some c := beq_iff_eq.mp hdown
      refine Or.inr ?_
      cases d with
      | free => exact absurd (hp.1.2.symm.trans hcmd) (by simp)
      | start c' => exact absurd (hp.1.2.symm.trans hcmd) (by simp)
      | remove c' =>
        obtain rfl : c' = c := Option.some.inj (hp.1.symm.trans hcmd)
        simp [Custody.part, Duty.part]
      | _ => exact hp.1.elim
    | _ => cases hdown

/-- **In a calm world a container that was removed is gone.** -/
theorem Calm.isGone (hw : w.Sound ps) (hc : w.Calm) (hremoved : 0 < (w.story c).removals) :
    w.isGone c = true := by
  cases hx : w.registry.cell? c with
  | none =>
    have hb := hw.balanced c
    rw [hx] at hb
    rw [hb.1] at hremoved
    exact absurd hremoved (lt_irrefl 0)
  | some x =>
    have hacc := hw.account hx
    have hremovals := hacc.removals
    have hone := Bool.toNat_le (w.story c).claimed
    rw [hc.early c] at hremovals
    -- the removal that was claimed was done
    have hclaimed : (w.story c).claimed.toNat = 1 ∧ Cast.part ps c .remove = 0 := by
      simp only [Bool.toNat_false] at hremovals
      omega
    have honce := hc.once c
    have hidle : (w.threads.map fun p => (p.claims c).toNat).sum = 0 := by
      rw [claims, hclaimed.1] at honce
      omega
    have hfree : isFree w.registry c = true := by
      by_contra hheld
      have hnone := hc.free c (Bool.eq_false_iff.mpr hheld)
      rw [claims, hclaimed.1] at hnone
      omega
    rw [isFree, hx] at hfree
    refine Bool.and_eq_true_iff.mpr ⟨hx ▸ hfree, List.all_eq_true.mpr fun p hp => ?_⟩
    rw [Bool.not_eq_true']
    obtain ⟨⟨_, k⟩, hmem, rfl⟩ := List.mem_map.mp (hw.threads ▸ hp)
    refine Bool.eq_false_iff.mpr fun hdown => ?_
    rcases claims_or_remove_of_takesDown (hw.keeps _ hmem) hdown with hclaims | hremove
    · have hzero := List.sum_eq_zero_iff_forall_eq_nat.mp hidle _ (List.mem_map_of_mem hp)
      rw [hclaims] at hzero
      cases hzero
    · exact absurd (Cast.part_eq_zero.mp hclaimed.2 _ hmem) hremove.ne'

end World
end LintGate
