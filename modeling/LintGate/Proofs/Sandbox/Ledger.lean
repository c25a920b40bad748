import LintGate.Proofs.Program.Leads
import LintGate.Proofs.Sandbox.Teardown

/-!
# What a world remembers

The log of a world says who got hold of a container, who claimed its removal first, and who found
that its start was recorded too late.  Programs that begin side by side, with nothing in their
hands, hold and owe at any moment what follows from what they exchanged themselves.

## Main definitions

* `Exchange.made`, `Exchange.taken`, `Exchange.won`, `Exchange.late` — exchanges that say something
  of a container.
* `Custody.after`, `Custody.Has` — the custody after a dialogue; who holds a container, or has to
  claim its removal.
* `World.Lawful` — what the log says, for every container.
* `World.Ledger` — programs that began side by side, and what each of them holds.

## Main results

* `Custody.taken_of_has`, `Custody.taken_of_claim` — nobody has a container, or claims its removal,
  who did not get hold of it.
* `World.Lawful.turn`, `World.Ledger.turns` — a turn, and so every run, keeps the books.
-/

namespace LintGate

open Program

/-! ### One program -/

namespace Exchange

/-- Someone made a container. -/
abbrev made (c : Container) : Exchange := ⟨.registry (.create c), ()⟩

/-- Someone took hold of a container. -/
abbrev taken (c : Container) : Exchange := ⟨.registry (.acquire c), true⟩

/-- Someone was the first to claim the removal of a container. -/
abbrev won (c : Container) : Exchange := ⟨.registry (.claim c), true⟩

/-- The start of a container was recorded after its removal was claimed. -/
abbrev late (c : Container) : Exchange := ⟨.registry (.markStarted c), false⟩

/-- How often a container is among those that someone fetched from the registry. -/
def fetched (c : Container) : Exchange → Nat
  | ⟨.registry .drain, cs⟩ => List.count c cs
  | _ => 0

/-- Whether a container was left to an interrupt. -/
def enlists (c : Container) : Exchange → Bool
  | ⟨.registry (.enlist c'), _⟩ => c' == c
  | _ => false

end Exchange

namespace Custody

variable {k : Custody} {c : Container} {r : Request} {x : r.Answer}

/-- Whether a program holds a container, or has to claim its removal. -/
def Has (k : Custody) (c : Container) : Prop := c ∈ k.held ∨ k.duty = .claim c

/-- The custody after a dialogue. -/
def after (k : Custody) (es : List Exchange) : Custody :=
  es.foldl (fun k e => k.next e.request e.answer) k

/-- A program gets hold of a container by making it, or by taking hold of it. -/
theorem has_of_next (hk : k.permits r) (h : (k.next r x).Has c) :
    k.Has c ∨ (⟨r, x⟩ : Exchange) = .made c ∨ (⟨r, x⟩ : Exchange) = .taken c := by
  obtain ⟨s, d, a⟩ := k
  cases r with
  | run cmd =>
    rcases h with h | h
    · refine Or.inl (Or.inl ?_)
      cases d <;> exact h
    · cases d with
      | start c' =>
        cases hx : ranWell x <;> simp [next, hx] at h
      | _ => simp [next] at h
  | token => exact Or.inl (h.imp id fun h => absurd h (by simp [next]))
  | registry op =>
    cases op with
    | create c' =>
      rcases h with h | h
      · rcases Multiset.mem_cons.mp h with rfl | h
        · exact Or.inr (Or.inl rfl)
        · exact Or.inl (Or.inl h)
      · exact absurd h (by simp [next])
    | markStarted c' =>
      refine Or.inl ?_
      cases x with
      | true => exact h.imp id fun h => absurd h (by simp [next])
      | false => exact h.imp id fun h => absurd h (by simp [next])
    | claim c' =>
      refine Or.inl (h.imp id fun h => ?_)
      cases x <;> exact absurd h (by simp [next])
    | acquire c' =>
      cases x with
      | true =>
        rcases h with h | h
        · rcases Multiset.mem_cons.mp h with rfl | h
          · exact Or.inr (Or.inr rfl)
          · exact Or.inl (Or.inl h)
        · exact Or.inl (Or.inr h)
      | false => exact Or.inl h
    | release c' =>
      cases d with
      | free =>
        refine Or.inl (Or.inl ?_)
        rcases h with h | h
        · exact Multiset.mem_of_mem_erase h
        · -- who gives up the last place held the container
          cases x with
          | true =>
            obtain rfl : c' = c := by simpa [next] using h
            exact hk
          | false => exact absurd h (by simp [next])
      | _ => exact hk.elim
    | _ => exact Or.inl h
  | _ => exact Or.inl h

/-- Who may claim the removal of a container has it. -/
theorem has_of_permits (hk : k.permits (.registry (.claim c))) : k.Has c := by
  obtain ⟨s, d, a⟩ := k
  cases d with
  | free => exact Or.inl hk
  | claim c' => exact Or.inr (congrArg Duty.claim (Eq.symm hk))
  | _ => exact hk.elim

variable {α : Type} {post : α → Custody → Prop} {p q : Program α} {es : List Exchange}

/-- What one more exchange before a dialogue says of who has a container. -/
theorem taken_of_next {rest : List Exchange} (hk : k.permits r)
    (h : (k.next r x).Has c ∨ .made c ∈ rest ∨ .taken c ∈ rest) :
    k.Has c ∨ .made c ∈ ⟨r, x⟩ :: rest ∨ .taken c ∈ ⟨r, x⟩ :: rest := by
  rcases h with h | h | h
  · refine (has_of_next hk h).imp id (Or.imp ?_ ?_)
    · exact fun he => he ▸ List.mem_cons_self
    · exact fun he => he ▸ List.mem_cons_self
  · exact Or.inr (Or.inl (List.mem_cons_of_mem _ h))
  · exact Or.inr (Or.inr (List.mem_cons_of_mem _ h))

/-- **Nobody has a container who did not get hold of it.** -/
theorem taken_of_has (hp : Keeps post p k) (h : Leads p es q) (hc : (k.after es).Has c) :
    k.Has c ∨ .made c ∈ es ∨ .taken c ∈ es := by
  induction h generalizing k with
  | refl p => exact Or.inl hc
  | ask x _ ih => exact taken_of_next hp.1 (ih (hp.2 x) hc)

/-- **Nobody claims the removal of a container who did not get hold of it.** -/
theorem taken_of_claim {first : Bool} (hp : Keeps post p k) (h : Leads p es q)
    (hc : ⟨.registry (.claim c), first⟩ ∈ es) : k.Has c ∨ .made c ∈ es ∨ .taken c ∈ es := by
  induction h generalizing k with
  | refl p => exact absurd hc List.not_mem_nil
  | ask x _ ih =>
    rcases List.mem_cons.mp hc with he | hc
    · cases he
      exact Or.inl (has_of_permits hp.1)
    · exact taken_of_next hp.1 (ih (hp.2 x) hc)

end Custody

/-! ### The log -/

namespace World

variable {env : Environment} {w w' : World} {ps : Cast} {c : Container} {i : Nat}

/-- A claim is answered by whether it is the first. -/
theorem Sound.claim_fst {p : Program Result × Custody} (hw : w.Sound ps) (hp : p ∈ ps)
    (hk : p.2.permits (.registry (.claim c))) :
    (w.registry.apply (.claim c)).1 = !(w.story c).claimed := by
  have hpart : ∃ q, 0 < p.2.part c q := by
    rcases Custody.has_of_permits hk with hheld | hduty
    · exact ⟨.handle, Multiset.count_pos.mpr hheld⟩
    · exact ⟨.claim, by simp [Custody.part, Duty.part, hduty]⟩
  obtain ⟨q, hq⟩ := hpart
  obtain ⟨x, hx, hacc, -⟩ := hw.exists_account hp hq
  have hanswer : (w.registry.apply (.claim c)).1 = (x.phase != .removed) := by
    simp [Registry.apply, hx]
  have hremoved := hacc.removed
  rw [hanswer]
  cases hc : (w.story c).claimed with
  | true => simp [hremoved.mpr hc]
  | false =>
    have hphase : x.phase ≠ .removed := fun h => absurd (hremoved.mp h) (by simp [hc])
    simp [hphase]

/-- If a container is held, someone holds it. -/
theorem Sound.exists_held {x : Cell} (hw : w.Sound ps) (hx : w.registry.cell? c = some x)
    (hpos : 0 < x.handles) : ∃ p ∈ ps, c ∈ p.2.held := by
  by_contra hnone
  have hzero : Cast.part ps c .handle = 0 := Cast.part_eq_zero.mpr fun p hp =>
    Multiset.count_eq_zero.mpr fun hc => hnone ⟨p, hp, hc⟩
  rw [(hw.account hx).handles, hzero] at hpos
  exact absurd hpos (lt_irrefl 0)

/-- If nobody holds a container or has to claim its removal, that was done. -/
theorem Sound.claimed_of_forall {x : Cell} (hw : w.Sound ps) (hx : w.registry.cell? c = some x)
    (hnone : ∀ p ∈ ps, ¬ p.2.Has c) : (w.story c).claimed = true := by
  have hhandle : Cast.part ps c .handle = 0 := Cast.part_eq_zero.mpr fun p hp =>
    Multiset.count_eq_zero.mpr fun hc => hnone p hp (Or.inl hc)
  have hclaim : Cast.part ps c .claim = 0 := Cast.part_eq_zero.mpr fun p hp => by
    by_contra hne
    obtain ⟨p, s, d, a⟩ := p
    cases d with
    | claim c' =>
      have hc : c' = c := by simpa [Custody.part, Duty.part] using hne
      exact hnone _ hp (Or.inr (congrArg Duty.claim hc))
    | _ => exact hne rfl
  have hpos := (hw.account hx).claimable
  rw [hhandle, hclaim] at hpos
  cases hc : (w.story c).claimed with
  | true => rfl
  | false => simp [hc] at hpos

/-- A start is recorded too late only if the removal was claimed before. -/
theorem Sound.claimed_of_late {p : Program Result × Custody} (hw : w.Sound ps) (hp : p ∈ ps)
    (hk : p.2.permits (.registry (.markStarted c)))
    (hlate : (w.registry.apply (.markStarted c)).1 = false) : (w.story c).claimed = true := by
  obtain ⟨i, hi⟩ := List.mem_iff_getElem?.mp hp
  obtain ⟨m, hm, -⟩ := sum_map_set (fun p => p.2.part c) hi
  have hb := hw.balanced c
  rw [Cast.part, hm] at hb
  obtain ⟨p, s, d, a⟩ := p
  cases d with
  | mark c' =>
    obtain ⟨rfl, -⟩ := hk
    obtain ⟨y, hy, hacc⟩ := hb.exists_cell (p := .mark) (by simp [Custody.part, Duty.part])
    obtain ⟨hmarked, -, -, -⟩ := hacc.unmarked
    rw [Registry.apply_markStarted_fst, hy, Option.any_some, beq_eq_false_iff_ne] at hlate
    cases hphase : y.phase with
    | starting => exact absurd hphase hlate
    | running => exact absurd (hacc.running hphase) (by simp [hmarked])
    | removed => exact hacc.removed.mp hphase
  | _ => exact hk.elim

/-- Only a claim makes a removal recorded. -/
theorem claim_of_note {h : Story} {e : Event} (hc : (h.note c e).claimed = true) :
    h.claimed = true ∨ ∃ first, e.exchange = ⟨.registry (.claim c), first⟩ := by
  obtain ⟨i, r, x⟩ := e
  cases r with
  | run cmd => exact Or.inl ((Story.claimed_noteRun h c cmd x).symm.trans hc)
  | registry op =>
    cases op with
    | claim c' =>
      by_cases he : c' = c
      · subst he
        exact Or.inr ⟨x, rfl⟩
      · rw [Story.note, if_neg he] at hc
        exact Or.inl hc
    | markStarted c' =>
      left
      rw [Story.note] at hc
      split at hc <;> exact hc
    | _ => exact Or.inl hc
  | _ => exact Or.inl hc

/-- What the log says of every container. -/
structure Lawful (w : World) : Prop where
  made : ∀ c, ∀ e ∈ w.log, e.exchange = .made c → (w.registry.cell? c).isSome = true
  /-- If its removal was claimed, someone was the first to do so. -/
  won : ∀ c, (w.story c).claimed = true → ∃ e ∈ w.log, e.exchange = .won c
  late : ∀ c, ∀ e ∈ w.log, e.exchange = .late c → (w.story c).claimed = true
  /-- After its start was recorded too late, nobody is the first to claim its removal. -/
  order : w.log.Pairwise fun e e' => ∀ c, e.exchange = .late c → e'.exchange ≠ .won c
  /-- It is with those that are left to an interrupt, or was fetched, as often as it was left. -/
  listed : ∀ c, w.registry.pending.count c + (w.log.map fun e => e.exchange.fetched c).sum =
    w.log.countP fun e => e.exchange.enlists c

theorem lawful_start (ps : List (Program Result)) : Lawful { threads := ps } where
  made := fun _ _ he => absurd he List.not_mem_nil
  won := fun _ h => absurd h Bool.false_ne_true
  late := fun _ _ he => absurd he List.not_mem_nil
  order := List.Pairwise.nil
  listed := fun _ => rfl

/-- What a turn does with the containers that are left to an interrupt. -/
theorem listed_reply {r : Request} {x : r.Answer} {registry : Registry} {drawn : List String}
    (hr : w.reply env r = some (x, registry, drawn)) (c : Container) :
    registry.pending.count c + Exchange.fetched c ⟨r, x⟩ =
      w.registry.pending.count c + (Exchange.enlists c ⟨r, x⟩).toNat := by
  cases r with
  | registry op =>
    obtain ⟨rfl, rfl, -⟩ := Pool.reply_registry hr
    cases op with
    | enlist c' =>
      have hpending : (w.registry.apply (.enlist c')).2.pending = w.registry.pending ++ [c'] := rfl
      rw [hpending, List.count_append, List.count_singleton]
      by_cases he : c' = c <;> simp [Exchange.fetched, Exchange.enlists, he]
    | drain => simp [Registry.apply, Exchange.fetched, Exchange.enlists]
    | markStarted c' =>
      simp only [Registry.apply]
      split <;> rfl
    | acquire c' =>
      simp only [Registry.apply]
      split <;> rfl
    | _ => rfl
  | token =>
    obtain ⟨-, rfl, -⟩ := Pool.reply_token hr
    rfl
  | _ =>
    obtain ⟨rfl, -⟩ := Pool.reply_other hr (by simp) (by simp)
    rfl

/-- **A turn keeps the log lawful.** -/
theorem Lawful.turn {r : Request} {next : r.Answer → Program Result} {x : r.Answer}
    {registry : Registry} {drawn : List String} {k : Custody} (hl : w.Lawful) (hw : w.Sound ps)
    (hi : ps[i]? = some (.ask r next, k)) (hr : w.reply env r = some (x, registry, drawn))
    (threads : List (Program Result)) :
    Lawful ⟨registry, drawn, threads, w.log ++ [⟨i, r, x⟩]⟩ := by
  have hmem := List.mem_of_getElem? hi
  obtain ⟨hk, -⟩ := hw.keeps _ hmem
  have hstory (c : Container) : Pool.story ⟨registry, drawn, threads, w.log ++ [⟨i, r, x⟩]⟩ c =
      (w.story c).note c ⟨i, r, x⟩ := Story.ofLog_concat ..
  constructor
  case made =>
    intro c e he hmade
    rcases List.mem_append.mp he with he | he
    · exact Pool.isSome_cell?_reply hr (hl.made c e he hmade)
    · obtain rfl := List.mem_singleton.mp he
      cases hmade
      obtain ⟨-, rfl, -⟩ := Pool.reply_registry hr
      show ((w.registry.apply (.create c)).2.cell? c).isSome = true
      rw [Registry.cell?_create, if_pos rfl]
      cases w.registry.cell? c <;> rfl
  case won =>
    intro c hc
    by_cases hbefore : (w.story c).claimed = true
    · obtain ⟨e, he, hwon⟩ := hl.won c hbefore
      exact ⟨e, List.mem_append_left _ he, hwon⟩
    · rw [hstory] at hc
      obtain ⟨first, hclaim⟩ := (claim_of_note hc).resolve_left hbefore
      cases hclaim
      obtain ⟨hfirst, -, -⟩ := Pool.reply_registry hr
      have hyes : x = true := by simp [hfirst, hw.claim_fst hmem hk, hbefore]
      subst hyes
      exact ⟨_, List.mem_append_right _ (List.mem_singleton_self _), rfl⟩
  case late =>
    intro c e he hlate
    rw [hstory]
    refine Story.claimed_note c _ ?_
    rcases List.mem_append.mp he with he | he
    · exact hl.late c e he hlate
    · obtain rfl := List.mem_singleton.mp he
      cases hlate
      exact hw.claimed_of_late hmem hk (Pool.reply_registry hr).1.symm
  case order =>
    refine List.pairwise_append.mpr ⟨hl.order, List.pairwise_singleton _ _, ?_⟩
    intro e he e' he' c hlate hwon
    obtain rfl := List.mem_singleton.mp he'
    cases hwon
    -- a claim after that is answered by no
    have hclaim := hw.claim_fst hmem hk
    rw [← (Pool.reply_registry hr).1, hl.late c e he hlate] at hclaim
    cases hclaim
  case listed =>
    intro c
    have hbefore := hl.listed c
    have hturn := listed_reply hr c
    have hone : (Exchange.enlists c ⟨r, x⟩).toNat =
        if Exchange.enlists c ⟨r, x⟩ = true then 1 else 0 := by split <;> simp [*]
    have hsum : ((w.log ++ [(⟨i, r, x⟩ : Event)]).map fun e => e.exchange.fetched c).sum =
        (w.log.map fun e => e.exchange.fetched c).sum + Exchange.fetched c ⟨r, x⟩ := by
      simp [Event.exchange]
    have hcount : ((w.log ++ [(⟨i, r, x⟩ : Event)]).countP fun e => e.exchange.enlists c) =
        (w.log.countP fun e => e.exchange.enlists c) +
          if Exchange.enlists c ⟨r, x⟩ = true then 1 else 0 := by
      rw [List.countP_append, List.countP_singleton]
      rfl
    rw [hsum, hcount]
    show registry.pending.count c + _ = _
    omega

/-! ### Programs that begin side by side -/

/-- Programs that began side by side, with nothing in their hands, and what each of them holds. -/
structure Ledger (starts : List (Program Result)) (w : World) (ps : Cast) : Prop where
  sound : w.Sound ps
  lawful : w.Lawful
  length : ps.length = starts.length
  /-- What a program exchanged leads to where it is, and to what it has. -/
  leads : ∀ i p q k, starts[i]? = some p → ps[i]? = some (q, k) →
    p.Leads (w.did i) q ∧ k = Custody.after {} (w.did i)

variable {starts : List (Program Result)}

theorem sound_start (h : ∀ p ∈ starts, Keeps Result.leaves p {}) :
    Sound { threads := starts } (starts.map fun p => (p, {})) where
  threads := by
    rw [List.map_map]
    exact (List.map_id starts).symm
  keeps := by simpa using h
  balanced := fun c => by
    refine ⟨rfl, funext fun q => Cast.part_eq_zero.mpr fun p hp => ?_⟩
    obtain ⟨p, -, rfl⟩ := List.mem_map.mp hp
    cases q <;> rfl
  tickets := fun t => by
    have hnone : Cast.tickets (starts.map fun p => (p, {})) t = 0 := by
      refine List.sum_eq_zero fun n hn => ?_
      obtain ⟨p, hp, rfl⟩ := List.mem_map.mp hn
      obtain ⟨q, -, rfl⟩ := List.mem_map.mp hp
      rfl
    rw [hnone]
    exact Nat.zero_le _
  drawn := List.nodup_nil
  assured := by simp
  log := by simp

/-- Programs that keep their custody may begin. -/
theorem ledger_start (h : ∀ p ∈ starts, Keeps Result.leaves p {}) :
    Ledger starts { threads := starts } (starts.map fun p => (p, {})) where
  sound := sound_start h
  lawful := lawful_start starts
  length := List.length_map _
  leads := by
    intro i p q k hp hq
    rw [List.getElem?_map, hp] at hq
    obtain ⟨rfl, rfl⟩ := Prod.mk.inj (Option.some.inj hq)
    exact ⟨.refl p, rfl⟩

/-- **A turn keeps the books.** -/
theorem Ledger.turn (hw : Ledger starts w ps) (hs : w.step? env i = some w') :
    ∃ ps', Ledger starts w' ps' := by
  obtain ⟨r, next, x, registry, drawn, hi, hr, rfl⟩ := Pool.step?_cases hs
  obtain ⟨k, hi⟩ := hw.sound.getElem?_cast hi
  refine ⟨_, hw.sound.turn hi hr, hw.lawful.turn hw.sound hi hr _, ?_, ?_⟩
  · rw [List.length_set, hw.length]
  intro j p q k' hp hq
  rw [Pool.did_turn]
  by_cases hij : i = j
  · subst hij
    obtain ⟨hleads, rfl⟩ := hw.leads i p _ k hp hi
    rw [List.getElem?_set_self (List.getElem?_eq_some_iff.mp hi).1] at hq
    obtain ⟨rfl, rfl⟩ := Prod.mk.inj (Option.some.inj hq)
    rw [if_pos rfl]
    refine ⟨hleads.snoc x, ?_⟩
    simp [Custody.after]
  · rw [List.getElem?_set_ne hij] at hq
    rw [if_neg hij, List.append_nil]
    exact hw.leads j p q k' hp hq

/-- **Every run keeps the books.** -/
theorem Ledger.turns {schedule : List Nat} (hw : Ledger starts w ps)
    (hs : w.turns env schedule = some w') : ∃ ps', Ledger starts w' ps' := by
  induction schedule generalizing w ps with
  | nil => exact ⟨ps, Option.some.inj hs ▸ hw⟩
  | cons i schedule ih =>
    obtain ⟨w₁, hw₁, hrest⟩ := Option.bind_eq_some_iff.mp hs
    obtain ⟨ps₁, hturn⟩ := hw.turn hw₁
    exact ih hturn hrest

end World
end LintGate
