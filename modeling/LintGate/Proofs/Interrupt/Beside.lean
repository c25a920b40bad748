import Mathlib.Algebra.Order.BigOperators.Group.List
import Mathlib.Algebra.Order.Group.Nat
import LintGate.Proofs.Sandbox.Ledger

/-!
# One program beside interrupts

A program runs, and beside it any number of interrupts clean up.  They take hold of containers
that were left to them only, so what becomes of a container that none of them took hold of is up to
the program alone.

## Main definitions

* `World.sweep`, `World.amid` — the clean-up of an interrupt; a program beside some of them.
* `Container.Tidies` — what a clean-up asks once it fetched the containers that were left to it.

## Main results

* `World.fetched_of_taken` — a clean-up takes hold only of containers that it fetched.
* `World.Ledger.won_of_alone` — **a program that is done removed what nobody else took hold of.**
* `World.Ledger.dead` — **a program that is done leaves nothing to interrupts that is still held.**
-/

namespace LintGate

open Program

namespace Container

/-- What a clean-up asks once it fetched the containers that were left to it. -/
def Tidies (listed : List Container) : Request → Prop
  | .registry (.acquire c) => c ∈ listed
  | .registry (.claim _) | .registry (.release _) | .run _ => True
  | _ => False

variable {listed : List Container}

theorem asks_acquireAll (cs : List Container) (h : ∀ c ∈ cs, c ∈ listed) :
    (acquireAll cs).Asks (Tidies listed) := by
  induction cs with
  | nil => exact asks_done []
  | cons c cs ih =>
    have hrest := ih fun c' hc' => h c' (List.mem_cons_of_mem c hc')
    refine ⟨h c List.mem_cons_self, fun held => ?_⟩
    cases held with
    | true => exact hrest.bind fun live => asks_done _
    | false => exact hrest

theorem asks_forEach {allowed : Request → Prop} {f : Container → Program Unit}
    (hf : ∀ c, (f c).Asks allowed) (cs : List Container) : (forEach f cs).Asks allowed := by
  induction cs with
  | nil => exact asks_done ()
  | cons c cs ih => exact (hf c).bind fun _ => ih

theorem asks_remove (c : Container) : c.remove.Asks (Tidies listed) := by
  refine ⟨trivial, fun first => ?_⟩
  cases first with
  | true => exact ⟨trivial, fun _ => asks_done ()⟩
  | false => exact asks_done ()

theorem asks_drop (c : Container) : c.drop.Asks (Tidies listed) := by
  refine ⟨trivial, fun last => ?_⟩
  cases last with
  | true => exact asks_remove c
  | false => exact asks_done ()

end Container

namespace World

/-- The clean-up of an interrupt. -/
def sweep : Program Result := Container.removeAll.bind fun n => .done (.swept n)

/-- A program, and interrupts beside it. -/
def amid (p : Program Result) (n : Nat) : List (Program Result) := p :: List.replicate n sweep

theorem keeps_sweep : Keeps Result.leaves sweep {} :=
  keeps_bind_of keeps_removeAll fun _ => ⟨rfl, rfl⟩

/-- What a clean-up exchanges: it fetches the containers, and deals with them. -/
theorem tidies_of_leads {q : Program Result} {es : List Exchange} (h : Leads sweep es q) :
    es = [] ∨ ∃ listed rest, es = ⟨.registry .drain, listed⟩ :: rest ∧
      ∀ e ∈ rest, Container.Tidies listed e.request := by
  cases h with
  | refl p => exact Or.inl rfl
  | ask listed h =>
    refine Or.inr ⟨listed, _, rfl, h.forall_mem (Asks.bind ?_ fun _ => asks_done _)⟩
    refine (Container.asks_acquireAll _ fun c hc => hc).bind fun live => ?_
    refine (Container.asks_forEach Container.asks_remove live).bind fun _ => ?_
    exact (Container.asks_forEach Container.asks_drop live).bind fun _ => asks_done _

variable {c : Container} {q : Program Result} {es : List Exchange} {e : Exchange}

/-- A clean-up takes hold only of containers that it fetched. -/
theorem fetched_of_taken (h : Leads sweep es q) (he : .taken c ∈ es) :
    ∃ e ∈ es, 0 < e.fetched c := by
  rcases tidies_of_leads h with rfl | ⟨listed, rest, rfl, hrest⟩
  · cases he
  rcases List.mem_cons.mp he with he | he
  · cases he
  · exact ⟨_, List.mem_cons_self, List.count_pos_iff.mpr (hrest _ he)⟩

/-- A clean-up makes no containers. -/
theorem not_made_of_sweep (h : Leads sweep es q) : .made c ∉ es := by
  intro he
  rcases tidies_of_leads h with rfl | ⟨listed, rest, rfl, hrest⟩
  · cases he
  rcases List.mem_cons.mp he with he | he
  · cases he
  · exact hrest _ he

/-- A clean-up leaves nothing to other interrupts. -/
theorem enlists_of_sweep (h : Leads sweep es q) (he : e ∈ es) : e.enlists c = false := by
  rcases tidies_of_leads h with rfl | ⟨listed, rest, rfl, hrest⟩
  · exact absurd he List.not_mem_nil
  rcases List.mem_cons.mp he with rfl | he
  · rfl
  have htidies := hrest e he
  obtain ⟨r, x⟩ := e
  cases r with
  | registry op =>
    cases op with
    | enlist c' => exact htidies.elim
    | _ => rfl
  | _ => rfl

variable {p : Program Result} {n i : Nat} {w : World} {ps : Cast} {k : Custody}

/-- Whatever is not the program is an interrupt. -/
theorem Ledger.sweeps (hw : Ledger (amid p n) w ps) (hi : i ≠ 0) (hq : ps[i]? = some (q, k)) :
    Leads sweep (w.did i) q ∧ k = Custody.after {} (w.did i) := by
  refine hw.leads i sweep q k ?_ hq
  have hlt : i < (amid p n).length := hw.length ▸ (List.getElem?_eq_some_iff.mp hq).1
  obtain ⟨j, rfl⟩ := Nat.exists_eq_succ_of_ne_zero hi
  have hj : j < n := by simpa [amid] using hlt
  simp [amid, hj]

/-- An interrupt that has a container, or claims its removal, fetched it and took hold of it. -/
theorem Ledger.acquired (hw : Ledger (amid p n) w ps) (hi : i ≠ 0) (hq : ps[i]? = some (q, k))
    (hc : k.Has c ∨ .won c ∈ w.did i) :
    ⟨i, .registry (.acquire c), true⟩ ∈ w.log ∧ ∃ e ∈ w.log, 0 < e.exchange.fetched c := by
  obtain ⟨hleads, rfl⟩ := hw.sweeps hi hq
  have hnone : ¬ Custody.Has {} c := fun h => h.elim (Multiset.notMem_zero c) (by simp)
  have hgot : .made c ∈ w.did i ∨ .taken c ∈ w.did i := by
    rcases hc with hhas | hwon
    · exact (Custody.taken_of_has keeps_sweep hleads hhas).resolve_left hnone
    · exact (Custody.taken_of_claim keeps_sweep hleads hwon).resolve_left hnone
  have htaken := hgot.resolve_left (not_made_of_sweep hleads)
  obtain ⟨e, he, hfetched⟩ := fetched_of_taken hleads htaken
  exact ⟨Pool.mem_did_iff.mp htaken, _, Pool.mem_did_iff.mp he, hfetched⟩

/-- Who logged something takes part. -/
theorem Ledger.exists_cast {e : Event} (hw : Ledger (amid p n) w ps) (he : e ∈ w.log) :
    ∃ q k, ps[e.thread]? = some (q, k) := by
  have hlt := hw.sound.log e he
  rw [hw.sound.threads, List.length_map] at hlt
  exact ⟨_, _, List.getElem?_eq_getElem hlt⟩

/-- **A program that is done removed what nobody else took hold of.** -/
theorem Ledger.won_of_alone (hw : Ledger (amid p n) w ps) (hp : ps[0]? = some (q, k))
    (hfree : ¬ k.Has c) (hmade : .made c ∈ w.did 0)
    (halone : ∀ i ≠ 0, ⟨i, .registry (.acquire c), true⟩ ∉ w.log) : .won c ∈ w.did 0 := by
  obtain ⟨x, hx⟩ :=
    Option.isSome_iff_exists.mp (hw.lawful.made c _ (Pool.mem_did_iff.mp hmade) rfl)
  -- Nobody has the container any more, so its removal was claimed.
  have hclaimed : (w.story c).claimed = true := by
    refine hw.sound.claimed_of_forall hx fun p' hp' hhas => ?_
    obtain ⟨i, hi⟩ := List.mem_iff_getElem?.mp hp'
    by_cases hzero : i = 0
    · subst hzero
      obtain rfl := Option.some.inj (hi.symm.trans hp)
      exact hfree hhas
    · exact halone i hzero (hw.acquired hzero hi (Or.inl hhas)).1
  obtain ⟨e, he, hwon⟩ := hw.lawful.won c hclaimed
  obtain ⟨q', k', hq'⟩ := hw.exists_cast he
  have hdid : .won c ∈ w.did e.thread := hwon ▸ Pool.mem_did_iff.mpr he
  by_cases hzero : e.thread = 0
  · exact hzero ▸ hdid
  · exact absurd (hw.acquired hzero hq' (Or.inr hdid)).1 (halone _ hzero)

/-- After its start was recorded too late, a program does not remove its container again. -/
theorem Lawful.order_did (hw : w.Lawful) (i : Nat) : (w.did i).Pairwise fun e e' =>
    ∀ c, e = .late c → e' ≠ .won c :=
  List.pairwise_map.mpr (hw.order.filter _)

/-- Only the program leaves a container to interrupts. -/
theorem Ledger.countP_enlists (hw : Ledger (amid p n) w ps) (c : Container) :
    (w.log.countP fun e => e.exchange.enlists c) ≤ (w.did 0).countP fun e => e.enlists c := by
  rw [Pool.did, List.countP_map, List.countP_filter]
  refine List.countP_mono_left fun e he henlists => ?_
  obtain ⟨q, k, hq⟩ := hw.exists_cast he
  have hzero : e.thread = 0 := by
    by_contra hne
    have hdid : e.exchange ∈ w.did e.thread := Pool.mem_did_iff.mpr he
    rw [enlists_of_sweep (hw.sweeps hne hq).1 hdid] at henlists
    exact Bool.false_ne_true henlists
  simpa [hzero] using henlists

/-- **A program that is done leaves nothing to interrupts that is still held.** -/
theorem Ledger.dead (hw : Ledger (amid p n) w ps) (hp : ps[0]? = some (q, k))
    (hfree : ¬ k.Has c) (honce : ((w.did 0).countP fun e => e.enlists c) ≤ 1)
    (hc : c ∈ w.registry.pending) : (w.registry.cell? c).any (0 < ·.handles) = false := by
  rw [Bool.eq_false_iff]
  intro hlive
  obtain ⟨x, hx, hpos⟩ := (Option.any_eq_true _ _).mp hlive
  obtain ⟨p', hp', hheld⟩ := hw.sound.exists_held hx (by simpa using hpos)
  obtain ⟨i, hi⟩ := List.mem_iff_getElem?.mp hp'
  have hzero : i ≠ 0 := by
    rintro rfl
    obtain rfl := Option.some.inj (hi.symm.trans hp)
    exact hfree (Or.inl hheld)
  -- An interrupt holds it, so it was fetched; and it waits to be fetched again.
  obtain ⟨-, e, he, hfetched⟩ := hw.acquired hzero hi (Or.inl (Or.inl hheld))
  have hsum : 0 < (w.log.map fun e => e.exchange.fetched c).sum :=
    lt_of_lt_of_le hfetched (List.single_le_sum (fun _ _ => Nat.zero_le _) _
      (List.mem_map_of_mem he))
  have hpending : 0 < w.registry.pending.count c := List.count_pos_iff.mpr hc
  have hlisted := hw.lawful.listed c
  have hcount := hw.countP_enlists c
  omega

end World
end LintGate
