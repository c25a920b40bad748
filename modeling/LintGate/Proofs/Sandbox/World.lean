import LintGate.Proofs.Sandbox.Balance
import LintGate.Proofs.Sandbox.Names

/-!
# All programs that deal with containers

Any number of programs create sandboxes, give them up, lint in them, or clean up for an
interrupt, with their turns in any order.  In every run each program keeps its custody and
each container is balanced, whatever the runtime answers.

## Main definitions

* `Result`, `World`, `Move`, `World.play` — the programs that take part, and their runs.
* `Cast`, `World.Sound` — the invariant of all runs.

## Main results

* `World.Sound.turn`, `World.Sound.move`, `World.Sound.play` — a turn, a move, and so a run
  keep the invariant.
-/

namespace LintGate

/-- What the programs that take part end with. -/
inductive Result
  | created (x : Except Fault Sandbox)
  | dropped
  | swept (count : Nat)
  | linted (x : Except Fault LintOutcome)

/-- The custody that a program ends with: who created a sandbox holds its container. -/
def Result.leaves : Result → Custody → Prop
  | .created (.ok box), k => k = ⟨{box.container}, .free, some box.container⟩
  | _, k => k.held = 0 ∧ k.duty = .free

/-- All programs that take part, with what they share. -/
abbrev World := Pool Result

/-- What can happen next. -/
inductive Move
  /-- Someone begins to create a sandbox. -/
  | create (s : SandboxConfig) (t : ToolConfig) (root : String)
  /-- An interrupt begins to clean up. -/
  | sweep
  /-- Someone begins to lint a script in a sandbox. -/
  | lint (box : Sandbox) (args : List String) (script : ScriptPath)
  /-- Who created a sandbox begins to give it up. -/
  | drop (i : Nat)
  /-- It is a program's turn. -/
  | step (i : Nat)

namespace World

/-- The call that lints a script in a sandbox. -/
def lintCall (box : Sandbox) (args : List String) (script : ScriptPath) : Program Result :=
  ((Strategy.sandbox box args).lint script).run.bind fun x => .done (.linted x)

/-- Makes a move, if it can be made. -/
def move? (env : Environment) (w : World) : Move → Option World
  | .create s t root =>
    some (w.spawn ((Sandbox.create s t root).run.bind fun x => .done (.created x)))
  | .sweep => some (w.spawn (Container.removeAll.bind fun n => .done (.swept n)))
  | .lint box args script => some (w.spawn (lintCall box args script))
  | .drop i =>
    match w.threads[i]? with
    | some (.done (.created (.ok box))) =>
      some { w with threads := w.threads.set i (box.container.drop.bind fun _ => .done .dropped) }
    | _ => none
  | .step i => w.step? env i

/-- Makes moves one after another. -/
def play (env : Environment) : List Move → World → Option World
  | [], w => some w
  | m :: ms, w => (move? env w m).bind (play env ms)

end World

/-- The programs of a world, each with its custody. -/
abbrev Cast := List (Program Result × Custody)

/-- What all programs have of a container. -/
def Cast.part (ps : Cast) (c : Container) : Part → Nat := (ps.map fun p => p.2.part c).sum

/-- How many containers are still to be made with the name of a token. -/
def Cast.tickets (ps : Cast) (t : String) : Nat := (ps.map fun p => p.2.tickets t).sum

/-- The invariant of all runs. -/
structure World.Sound (w : World) (ps : Cast) : Prop where
  threads : w.threads = ps.map Prod.fst
  keeps : ∀ p ∈ ps, Keeps Result.leaves p.1 p.2
  balanced : ∀ c, Balanced (w.registry.cell? c) (w.story c) (ps.part c)
  tickets : ∀ t, ps.tickets t + w.registry.named t ≤ w.drawn.count t
  drawn : w.drawn.Nodup
  assured : ∀ p ∈ ps, ∀ c, p.2.assured = some c →
    (w.story c).marked = true ∧ (w.story c).early = false
  log : ∀ e ∈ w.log, e.thread < w.threads.length

section Sums

variable {α M : Type} [AddCommMonoid M]

/-- A sum in which one item is exchanged. -/
theorem sum_map_set {l : List α} {i : Nat} {a : α} (f : α → M) (hi : l[i]? = some a) :
    ∃ m, (l.map f).sum = m + f a ∧ ∀ b, ((l.set i b).map f).sum = m + f b := by
  induction l generalizing i with
  | nil => exact absurd hi (by simp)
  | cons x l ih =>
    cases i with
    | zero =>
      obtain rfl : x = a := by simpa using hi
      exact ⟨(l.map f).sum, by simp [add_comm], fun b => by simp [add_comm]⟩
    | succ i =>
      obtain ⟨m, hm, hset⟩ := ih (by simpa using hi)
      refine ⟨f x + m, by simp [hm, add_assoc], fun b => ?_⟩
      rw [List.set_cons_succ, List.map_cons, List.sum_cons, hset, add_assoc]

end Sums

namespace World

variable {env : Environment} {w w' : World} {ps : Cast}

theorem sound_empty : Sound {} [] where
  threads := rfl
  keeps := by simp
  balanced := fun _ => ⟨rfl, rfl⟩
  tickets := fun _ => le_refl _
  drawn := List.nodup_nil
  assured := by simp
  log := by simp

/-- A new program that holds nothing. -/
theorem Sound.spawn {p : Program Result} (hw : w.Sound ps) (hp : Keeps Result.leaves p {}) :
    Sound (w.spawn p) (ps ++ [(p, Custody.mk 0 .free none)]) where
  threads := by simp [hw.threads]
  keeps := by
    intro q hq
    rcases List.mem_append.mp hq with hq | hq
    · exact hw.keeps q hq
    · rw [List.mem_singleton.mp hq]
      exact hp
  balanced := fun c => by
    have hnone : Custody.part ⟨0, .free, none⟩ c = 0 := by funext q; cases q <;> rfl
    have hpart : Cast.part (ps ++ [(p, Custody.mk 0 .free none)]) c = ps.part c := by
      simp [Cast.part, hnone]
    rw [hpart]
    exact hw.balanced c
  tickets := fun t => by
    have htickets : Cast.tickets (ps ++ [(p, Custody.mk 0 .free none)]) t = ps.tickets t := by
      simp [Cast.tickets, Custody.tickets]
    rw [htickets]
    exact hw.tickets t
  drawn := hw.drawn
  assured := by
    intro q hq c hc
    rcases List.mem_append.mp hq with hq | hq
    · exact hw.assured q hq c hc
    · rw [List.mem_singleton.mp hq] at hc
      exact absurd hc (by simp)
  log := fun e he => by
    rw [Pool.threads_spawn, List.length_append]
    exact Nat.lt_add_right _ (hw.log e he)

theorem Sound.getElem?_cast {i : Nat} {p : Program Result} (hw : w.Sound ps)
    (hi : w.threads[i]? = some p) : ∃ k, ps[i]? = some (p, k) := by
  rw [hw.threads, List.getElem?_map, Option.map_eq_some_iff] at hi
  obtain ⟨⟨q, k⟩, hq, rfl⟩ := hi
  exact ⟨k, hq⟩

/-- The account of a container that was created. -/
theorem Sound.account {c : Container} {x : Cell} (hw : w.Sound ps)
    (hx : w.registry.cell? c = some x) : Account x (w.story c) (ps.part c) := by
  have hb := hw.balanced c
  rwa [hx] at hb

/-- A container that a program holds or owes something to was created. -/
theorem Sound.exists_account {c : Container} {p : Program Result × Custody} {q : Part}
    (hw : w.Sound ps) (hp : p ∈ ps) (hpos : 0 < p.2.part c q) :
    ∃ x, w.registry.cell? c = some x ∧ Account x (w.story c) (ps.part c) ∧ 0 < ps.part c q := by
  obtain ⟨i, hi⟩ := List.mem_iff_getElem?.mp hp
  obtain ⟨m, hm, -⟩ := sum_map_set (fun p => p.2.part c) hi
  have hb := hw.balanced c
  rw [Cast.part, hm] at hb ⊢
  obtain ⟨x, hx, hacc⟩ := hb.exists_cell hpos
  exact ⟨x, hx, hacc, Nat.lt_of_lt_of_le hpos (Nat.le_add_left _ (m q))⟩

/-- A program exchanged for another one with the same custody. -/
theorem Sound.exchange {i : Nat} {p p' : Program Result} {k : Custody} (hw : w.Sound ps)
    (hi : ps[i]? = some (p, k)) (hp : Keeps Result.leaves p' k) :
    Sound { w with threads := w.threads.set i p' } (ps.set i (p', k)) where
  threads := by rw [hw.threads, List.map_set]
  keeps := fun q hq => by
    rcases List.mem_or_eq_of_mem_set hq with hq | rfl
    · exact hw.keeps q hq
    · exact hp
  balanced := fun c => by
    obtain ⟨m, hm, hset⟩ := sum_map_set (fun p => p.2.part c) hi
    have hb := hw.balanced c
    rw [Cast.part, hm] at hb
    rw [Cast.part, hset]
    exact hb
  tickets := fun t => by
    obtain ⟨m, hm, hset⟩ := sum_map_set (fun p => p.2.tickets t) hi
    have ht := hw.tickets t
    rw [Cast.tickets, hm] at ht
    rw [Cast.tickets, hset]
    exact ht
  drawn := hw.drawn
  assured := fun q hq c hc => by
    rcases List.mem_or_eq_of_mem_set hq with hq | rfl
    · exact hw.assured q hq c hc
    · exact hw.assured (p, k) (List.mem_of_getElem? hi) c hc
  log := fun e he => by
    rw [List.length_set]
    exact hw.log e he

/-- Who is to make a container is the first to make it. -/
theorem Sound.fresh {p : Program Result × Custody} {c : Container} (hw : w.Sound ps)
    (hp : p ∈ ps) (hk : p.2.permits (.registry (.create c))) : w.registry.cell? c = none := by
  obtain ⟨p, s, d, a⟩ := p
  cases d with
  | create t =>
    obtain ⟨i, hi⟩ := List.mem_iff_getElem?.mp hp
    obtain ⟨m, hm, -⟩ := sum_map_set (fun p => p.2.tickets t) hi
    have ht := hw.tickets t
    have hone : w.drawn.count t ≤ 1 := List.nodup_iff_count_le_one.mp hw.drawn t
    have hticket : Custody.tickets t ⟨s, .create t, a⟩ = 1 := if_pos rfl
    rw [Cast.tickets, hm] at ht
    dsimp only at ht
    exact Registry.cell?_of_named (t := t) (by omega) hk
  | _ => exact hk.elim

/-- The turn of a program: its custody goes on with the answer. -/
theorem Sound.turn {i : Nat} {r : Request} {next : r.Answer → Program Result} {x : r.Answer}
    {registry : Registry} {drawn : List String} {k : Custody} (hw : w.Sound ps)
    (hi : ps[i]? = some (.ask r next, k)) (hr : w.reply env r = some (x, registry, drawn)) :
    Sound ⟨registry, drawn, w.threads.set i (next x), w.log ++ [⟨i, r, x⟩]⟩
      (ps.set i (next x, k.next r x)) := by
  have hmem := List.mem_of_getElem? hi
  obtain ⟨hk, hnext⟩ := hw.keeps _ hmem
  have hstory (c : Container) : Pool.story ⟨registry, drawn, w.threads.set i (next x),
      w.log ++ [⟨i, r, x⟩]⟩ c = (w.story c).note c ⟨i, r, x⟩ := Story.ofLog_concat ..
  -- One program and its custody go on; in each sum one item is exchanged.
  constructor
  case threads => rw [hw.threads, List.map_set]
  case keeps =>
    intro q hq
    rcases List.mem_or_eq_of_mem_set hq with hq | rfl
    · exact hw.keeps q hq
    · exact hnext x
  case balanced =>
    intro c
    obtain ⟨m, hm, hset⟩ := sum_map_set (fun p => p.2.part c) hi
    have hb := hw.balanced c
    rw [Cast.part, hm] at hb
    rw [Cast.part, hset, hstory]
    exact hb.reply hk hr fun c' he => hw.fresh hmem (he ▸ hk)
  case tickets =>
    intro t
    obtain ⟨m, hm, hset⟩ := sum_map_set (fun p => p.2.tickets t) hi
    have ht := hw.tickets t
    rw [Cast.tickets, hm] at ht
    rw [Cast.tickets, hset]
    exact Custody.tickets_reply hk hr ht
  case drawn => exact Pool.nodup_reply hr hw.drawn
  case assured =>
    intro q hq c hc
    rw [hstory]
    rcases List.mem_or_eq_of_mem_set hq with hq | rfl
    · exact Story.assured_note c _ (hw.assured q hq c hc)
    · obtain ⟨m, hm, -⟩ := sum_map_set (fun p => p.2.part c) hi
      have hb := hw.balanced c
      rw [Cast.part, hm] at hb
      exact hb.assured_reply hk hr (hw.assured _ hmem c) hc
  case log =>
    intro e he
    rw [List.length_set]
    rcases List.mem_append.mp he with he | he
    · exact hw.log e he
    · rw [List.mem_singleton.mp he, hw.threads, List.length_map]
      exact (List.getElem?_eq_some_iff.mp hi).1

/-- **The turn of a program keeps the invariant.** -/
theorem Sound.step {i : Nat} (hw : w.Sound ps) (hs : w.step? env i = some w') :
    ∃ ps', Sound w' ps' := by
  obtain ⟨r, next, x, registry, drawn, hi, hr, rfl⟩ := Pool.step?_cases hs
  obtain ⟨k, hi⟩ := hw.getElem?_cast hi
  exact ⟨_, hw.turn hi hr⟩

/-- **A move keeps the invariant.** -/
theorem Sound.move {m : Move} (hw : w.Sound ps) (hm : w.move? env m = some w') :
    ∃ ps', Sound w' ps' := by
  cases m with
  | create s t root =>
    obtain rfl := Option.some.inj hm
    refine ⟨_, hw.spawn (keeps_bind ((keeps_create s t root).mono fun x k hk => ?_))⟩
    cases x with
    | ok box => exact hk
    | error f => exact hk ▸ ⟨rfl, rfl⟩
  | sweep =>
    obtain rfl := Option.some.inj hm
    exact ⟨_, hw.spawn (keeps_bind_of keeps_removeAll fun _ => ⟨rfl, rfl⟩)⟩
  | lint box args script =>
    obtain rfl := Option.some.inj hm
    exact ⟨_, hw.spawn (keeps_bind_of (keeps_lint box args script) fun _ => ⟨rfl, rfl⟩)⟩
  | drop i =>
    simp only [move?] at hm
    split at hm
    · next box hi =>
      obtain rfl := Option.some.inj hm
      obtain ⟨k, hk⟩ := hw.getElem?_cast hi
      obtain rfl : k = _ := hw.keeps _ (List.mem_of_getElem? hk)
      refine ⟨_, hw.exchange hk (keeps_bind_of (keeps_drop ?_) fun _ => ⟨?_, rfl⟩)⟩
      · exact Multiset.mem_singleton_self _
      · exact Multiset.erase_cons_head _ 0
    · exact absurd hm (by simp)
  | step i => exact hw.step hm

/-- **A run keeps the invariant.** -/
theorem Sound.play {ms : List Move} (hw : w.Sound ps) (hm : w.play env ms = some w') :
    ∃ ps', Sound w' ps' := by
  induction ms generalizing w ps with
  | nil =>
    obtain rfl := Option.some.inj hm
    exact ⟨ps, hw⟩
  | cons m ms ih =>
    obtain ⟨w₁, hw₁, hrest⟩ := Option.bind_eq_some_iff.mp hm
    obtain ⟨ps₁, hs⟩ := hw.move hw₁
    exact ih hs hrest

end World
end LintGate
