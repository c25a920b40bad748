import LintGate.Proofs.Sandbox.Custody

/-!
# The account of a container

The cell of a container, its story, and what all programs together hold of it and owe to it
balance each other.  The balance is kept by all that can happen to the container.

## Main definitions

* `Part`, `Custody.part` — what a program has of a container.
* `Account` — the balance.

## Main results

* `Account.created`, `Account.startWell`, `Account.remove`, … — one lemma for each thing that
  can happen to a container.
* `Account.gone` — what the balance says when nobody holds or owes anything.
-/

namespace LintGate

/-- What a program can hold of a container or owe to it. -/
inductive Part
  | handle
  | start
  | mark
  | claim
  | remove

/-- The part of a container in a duty. -/
def Duty.part (c : Container) : Duty → Part → Nat
  | .start c', .start | .mark c', .mark | .claim c', .claim | .remove c', .remove =>
    if c' = c then 1 else 0
  | _, _ => 0

/-- What a program holds of a container and owes to it. -/
def Custody.part (k : Custody) (c : Container) : Part → Nat
  | .handle => k.held.count c
  | p => k.duty.part c p

/-- The account of a container that was created: its cell, its story, and what all programs
have of it. -/
structure Account (x : Cell) (h : Story) (n : Part → Nat) : Prop where
  handles : x.handles = n .handle
  removed : x.phase = .removed ↔ h.claimed = true
  running : x.phase = .running → h.marked = true
  /-- A start is recorded, or will be. -/
  marked : n .mark + h.marked.toNat = h.started.toNat
  started : n .start + h.started.toNat ≤ 1
  early : h.early = true → h.marked = true
  /-- A removal follows a claim, and one more follows a claim that was too early. -/
  removals : h.removals + n .remove = h.claimed.toNat + h.early.toNat
  late_le : h.late ≤ h.removals
  inTime : h.marked = true → h.early = false → h.late = h.removals
  repeated : h.early = true → 1 ≤ h.late + n .remove
  /-- Someone holds the container, or is about to claim its removal, or that was done. -/
  claimable : 0 < n .handle + n .claim + h.claimed.toNat

namespace Account

variable {x : Cell} {h : Story} {m : Part → Nat} {s : Multiset Container}
  {a a' : Option Container} {c : Container} {d : Duty}

/-- The account of a new container. -/
theorem created (hs : s.count c = 0) :
    Account ⟨c, .starting, 1⟩ {} (Custody.part ⟨c ::ₘ s, .start c, a⟩ c) := by
  constructor <;> simp [Custody.part, Duty.part, hs]

theorem startWell (hx : Account x h (m + Custody.part ⟨s, .start c, a⟩ c)) :
    Account x { h with started := true } (m + Custody.part ⟨s, .mark c, a⟩ c) := by
  have hm : m .mark + 0 + h.marked.toNat = h.started.toNat := hx.marked
  have hs : m .start + (if c = c then 1 else 0) + h.started.toNat ≤ 1 := hx.started
  rw [if_pos rfl] at hs
  refine { hx with marked := ?_, started := ?_ }
  · show m .mark + (if c = c then 1 else 0) + h.marked.toNat = 1
    rw [if_pos rfl]
    omega
  · show m .start + 0 + 1 ≤ 1
    omega

theorem startFailed (hx : Account x h (m + Custody.part ⟨s, .start c, a⟩ c)) :
    Account x h (m + Custody.part ⟨s, .free, a⟩ c) := by
  have hs : m .start + (if c = c then 1 else 0) + h.started.toNat ≤ 1 := hx.started
  refine { hx with started := ?_ }
  show m .start + 0 + h.started.toNat ≤ 1
  omega

theorem remove (hx : Account x h (m + Custody.part ⟨s, .remove c, a⟩ c)) :
    Account x h.remove (m + Custody.part ⟨s, .free, a⟩ c) := by
  have hm : m .mark + 0 + h.marked.toNat = h.started.toNat := hx.marked
  have hr : h.removals + (m .remove + if c = c then 1 else 0) =
      h.claimed.toNat + h.early.toNat := hx.removals
  have hl := hx.late_le
  rw [if_pos rfl] at hr
  -- Whoever records a start, in time or not, was told before that it went well.
  have hstarted (hmarked : h.marked = true) : h.started = true := by
    cases hs : h.started with
    | true => rfl
    | false =>
      rw [hmarked, hs] at hm
      simp at hm
  refine { hx with removals := ?_, late_le := ?_, inTime := fun hmarked he => ?_,
                   repeated := fun he => ?_ }
  · show h.removals + 1 + (m .remove + 0) = h.claimed.toNat + h.early.toNat
    omega
  · show h.late + (if h.started = true then 1 else 0) ≤ h.removals + 1
    split <;> omega
  · show h.late + (if h.started = true then 1 else 0) = h.removals + 1
    rw [if_pos (hstarted hmarked), hx.inTime hmarked he]
  · show 1 ≤ h.late + (if h.started = true then 1 else 0) + (m .remove + 0)
    rw [if_pos (hstarted (hx.early he))]
    omega

/-- Before a start is recorded, no removal can be too early. -/
theorem unmarked (hx : Account x h (m + Custody.part ⟨s, .mark c, a⟩ c)) :
    h.marked = false ∧ h.early = false ∧ h.started = true ∧ m .mark = 0 := by
  have hm : m .mark + (if c = c then 1 else 0) + h.marked.toNat = h.started.toNat := hx.marked
  have hone := Bool.toNat_le h.started
  have he := hx.early
  rw [if_pos rfl] at hm
  grind

theorem markInTime (hx : Account x h (m + Custody.part ⟨s, .mark c, a⟩ c))
    (hp : x.phase = .starting) :
    Account { x with phase := .running } h.mark (m + Custody.part ⟨s, .free, a'⟩ c) := by
  obtain ⟨hmarked, he, hstarted, hm⟩ := hx.unmarked
  have hr : h.removals + (m .remove + 0) = h.claimed.toNat + h.early.toNat := hx.removals
  have hl := hx.late_le
  have hc : h.claimed = false := by
    refine Bool.eq_false_iff.mpr fun hc => ?_
    rw [hx.removed.mpr hc] at hp
    exact absurd hp (by decide)
  have hmark : h.mark = { h with marked := true } := by
    rw [Story.mark, hmarked, if_neg Bool.false_ne_true, hc, ← he]
  rw [hmark]
  rw [hc, he] at hr
  refine { hx with removed := ?_, running := fun _ => rfl, marked := ?_, early := fun _ => rfl,
                   inTime := fun _ _ => ?_ }
  · exact iff_of_false (by simp) (by simp [hc])
  · show m .mark + 0 + 1 = h.started.toNat
    rw [hm, hstarted]
    rfl
  · show h.late = h.removals
    have hnone : h.removals + (m .remove + 0) = 0 := hr
    omega

theorem markLate (hx : Account x h (m + Custody.part ⟨s, .mark c, a⟩ c))
    (hp : x.phase ≠ .starting) : Account x h.mark (m + Custody.part ⟨s, .remove c, a⟩ c) := by
  obtain ⟨hmarked, he, hstarted, hm⟩ := hx.unmarked
  have hr : h.removals + (m .remove + 0) = h.claimed.toNat + h.early.toNat := hx.removals
  have hc : h.claimed = true := by
    cases hphase : x.phase with
    | starting => exact absurd hphase hp
    | running => exact absurd (hx.running hphase) (by simp [hmarked])
    | removed => exact hx.removed.mp hphase
  have hmark : h.mark = { h with marked := true, early := true } := by
    rw [Story.mark, hmarked, if_neg Bool.false_ne_true, hc]
  rw [hmark]
  rw [he] at hr
  refine { hx with running := fun _ => rfl, marked := ?_, early := fun _ => rfl, removals := ?_,
                   inTime := fun _ h => absurd h (by simp), repeated := fun _ => ?_ }
  · show m .mark + 0 + 1 = h.started.toNat
    rw [hm, hstarted]
    rfl
  · show h.removals + (m .remove + if c = c then 1 else 0) = h.claimed.toNat + 1
    rw [if_pos rfl]
    have hnone : h.removals + (m .remove + 0) = h.claimed.toNat + 0 := hr
    omega
  · show 1 ≤ h.late + (m .remove + if c = c then 1 else 0)
    rw [if_pos rfl]
    omega

/-- The first claim is followed by a removal. -/
theorem claimFirst (hx : Account x h (m + Custody.part ⟨s, d, a⟩ c))
    (hd : d = .free ∨ d = .claim c) (hp : x.phase ≠ .removed) :
    Account { x with phase := .removed } { h with claimed := true }
      (m + Custody.part ⟨s, .remove c, a⟩ c) := by
  have hc : h.claimed = false := Bool.eq_false_iff.mpr fun hc => hp (hx.removed.mpr hc)
  have hpart : (m + Custody.part ⟨s, d, a⟩ c) .remove = m .remove + 0 := by
    rcases hd with rfl | rfl <;> rfl
  have hr := hx.removals
  have hrep := hx.repeated
  rw [hpart, hc] at hr
  rw [hpart] at hrep
  have hremovals : h.removals + (m .remove + if c = c then 1 else 0) = 1 + h.early.toNat := by
    have hnone : h.removals + (m .remove + 0) = 0 + h.early.toNat := hr
    rw [if_pos rfl]
    omega
  have hrepeated (he : h.early = true) : 1 ≤ h.late + (m .remove + if c = c then 1 else 0) := by
    have hone := hrep he
    omega
  rcases hd with rfl | rfl
  · exact { hx with removed := iff_of_true rfl rfl, running := fun h => absurd h (by simp),
                    removals := hremovals, repeated := hrepeated, claimable := Nat.succ_pos _ }
  · exact { hx with removed := iff_of_true rfl rfl, running := fun h => absurd h (by simp),
                    removals := hremovals, repeated := hrepeated, claimable := Nat.succ_pos _ }

theorem claimAgain (hx : Account x h (m + Custody.part ⟨s, d, a⟩ c))
    (hd : d = .free ∨ d = .claim c) (hp : x.phase = .removed) :
    Account { x with phase := .removed } { h with claimed := true }
      (m + Custody.part ⟨s, .free, a⟩ c) := by
  have hc : h.claimed = true := hx.removed.mp hp
  have hsame : { h with claimed := true } = h := by rw [← hc]
  have hcell : { x with phase := .removed } = x := by rw [← hp]
  have hpos : 0 < m .handle + s.count c + (m .claim + 0) + h.claimed.toNat := by
    rw [hc]
    exact Nat.succ_pos _
  rw [hsame, hcell]
  rcases hd with rfl | rfl
  · exact hx
  · exact { hx with claimable := hpos }

theorem acquire (hx : Account x h (m + Custody.part ⟨s, .free, a⟩ c)) :
    Account { x with handles := x.handles + 1 } h (m + Custody.part ⟨c ::ₘ s, .free, a⟩ c) := by
  have hh : x.handles = m .handle + s.count c := hx.handles
  have hcount : (c ::ₘ s).count c = s.count c + 1 := Multiset.count_cons_self c s
  refine { hx with handles := ?_, claimable := ?_ }
  · show x.handles + 1 = m .handle + (c ::ₘ s).count c
    omega
  · show 0 < m .handle + (c ::ₘ s).count c + (m .claim + 0) + h.claimed.toNat
    omega

/-- Who gives up the last place has to claim the removal. -/
theorem release (hx : Account x h (m + Custody.part ⟨s, .free, a⟩ c)) (hs : c ∈ s) :
    Account { x with handles := x.handles - 1 } h
      (m + Custody.part ⟨s.erase c, if x.handles = 1 then .claim c else .free, a⟩ c) := by
  have hh : x.handles = m .handle + s.count c := hx.handles
  have hpos : 0 < s.count c := Multiset.count_pos.mpr hs
  have hcount : (s.erase c).count c = s.count c - 1 := Multiset.count_erase_self c s
  have hhandles : x.handles - 1 = m .handle + (s.erase c).count c := by omega
  split
  · refine { hx with handles := hhandles, claimable := ?_ }
    show 0 < m .handle + (s.erase c).count c + (m .claim + if c = c then 1 else 0) +
      h.claimed.toNat
    rw [if_pos rfl]
    omega
  · refine { hx with handles := hhandles, claimable := ?_ }
    show 0 < m .handle + (s.erase c).count c + (m .claim + 0) + h.claimed.toNat
    omega

/-- **Once nobody holds a container** and nobody is about to remove it, all is done. -/
theorem gone {n : Part → Nat} (hx : Account x h n) (hh : n .handle = 0) (hm : n .mark = 0)
    (hc : n .claim = 0) (hr : n .remove = 0) :
    h.removals = (if h.started = true ∧ h.early = true then 2 else 1) ∧
      (h.started = true → 1 ≤ h.late) := by
  -- Nobody is left to claim the removal or to record the start, so both was done.
  have hclaimed : h.claimed = true := by
    have := hx.claimable
    grind
  have hmarked : h.marked = h.started := by
    have := hx.marked
    cases hs : h.started <;> cases hm' : h.marked <;> simp_all
  have hcount : h.removals = 1 + h.early.toNat := by
    have := hx.removals
    grind
  cases he : h.early with
  | true =>
    have hmark : h.marked = true := hx.early he
    have hlate : 1 ≤ h.late := by simpa [hr] using hx.repeated he
    rw [hcount, ← hmarked, hmark, he]
    exact ⟨rfl, fun _ => hlate⟩
  | false =>
    rw [he] at hcount
    refine ⟨by simp [hcount], fun hs => ?_⟩
    rw [hx.inTime (hmarked.trans hs) he, hcount]
    exact Nat.le_add_right _ _

end Account
end LintGate
