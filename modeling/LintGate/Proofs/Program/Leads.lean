import LintGate.Proofs.Program.Exchange
import LintGate.Proofs.Program.Pool

/-!
# How far a program got

Programs that run side by side may come between each other, but each goes its own way: what it
exchanged so far leads from the program that it was to the program that is left of it.

## Main definitions

* `Program.Leads` — what can be exchanged on the way from a program to what is left of it.
* `Pool.did` — what one program of a pool exchanged so far.
* `Pool.turns` — turns of programs one after another.

## Main results

* `Program.Leads.snoc`, `Pool.did_turn` — one more exchange.
* `Program.Leads.path` — who is done went a way through the whole program.
-/

namespace LintGate

namespace Program

variable {α : Type} {p q : Program α} {es : List Exchange}

/-- What can be exchanged on the way from a program to what is left of it. -/
inductive Leads : Program α → List Exchange → Program α → Prop
  | refl (p : Program α) : Leads p [] p
  | ask {r : Request} {next : r.Answer → Program α} (x : r.Answer) {es : List Exchange}
      {q : Program α} (h : Leads (next x) es q) : Leads (ask r next) (⟨r, x⟩ :: es) q

/-- One more exchange. -/
theorem Leads.snoc {r : Request} {next : r.Answer → Program α} (h : Leads p es (Program.ask r next))
    (x : r.Answer) : Leads p (es ++ [⟨r, x⟩]) (next x) := by
  generalize hq : Program.ask r next = q at h
  induction h with
  | refl p =>
    subst hq
    exact .ask x (.refl _)
  | ask y _ ih => exact .ask y (ih hq)

/-- Who is done went a way through the whole program. -/
theorem Leads.path {a : α} (h : Leads p es (done a)) : Path p es a := by
  generalize hq : done a = q at h
  induction h with
  | refl p =>
    subst hq
    exact .done a
  | ask x _ ih => exact .ask x (ih hq)

/-- A program exchanges only what it allows itself, however far it got. -/
theorem Leads.forall_mem {allowed : Request → Prop} (h : Leads p es q) (hp : p.Asks allowed) :
    ∀ e ∈ es, allowed e.request := by
  induction h with
  | refl p => exact fun e he => absurd he List.not_mem_nil
  | ask x _ ih =>
    intro e he
    rcases List.mem_cons.mp he with rfl | he
    · exact hp.1
    · exact ih (hp.2 x) e he

end Program

/-- What was exchanged in an event. -/
def Event.exchange (e : Event) : Exchange := ⟨e.request, e.answer⟩

namespace Pool

variable {ρ : Type}

/-- What one program of a pool exchanged so far. -/
def did (w : Pool ρ) (i : Nat) : List Exchange :=
  (w.log.filter (·.thread = i)).map Event.exchange

variable {w : Pool ρ} {e : Exchange} {i j : Nat}

theorem mem_did_iff : e ∈ w.did i ↔ ⟨i, e.request, e.answer⟩ ∈ w.log := by
  constructor
  · intro he
    obtain ⟨⟨j, r, x⟩, hmem, rfl⟩ := List.mem_map.mp he
    obtain ⟨hlog, hthread⟩ := List.mem_filter.mp hmem
    obtain rfl : j = i := by simpa using hthread
    exact hlog
  · exact fun he => List.mem_map.mpr ⟨_, List.mem_filter.mpr ⟨he, by simp⟩, rfl⟩

/-- In a turn the program whose turn it is exchanges something, and no other does. -/
theorem did_turn {registry : Registry} {drawn : List String} {threads : List (Program ρ)}
    {r : Request} {x : r.Answer} :
    Pool.did ⟨registry, drawn, threads, w.log ++ [⟨i, r, x⟩]⟩ j =
      w.did j ++ if i = j then [⟨r, x⟩] else [] := by
  simp only [did, List.filter_append, List.map_append]
  split
  · next h => simp [h, Event.exchange]
  · next h => simp [h]

/-- Turns of programs one after another. -/
def turns (env : Environment) : List Nat → Pool ρ → Option (Pool ρ)
  | [], w => some w
  | i :: is, w => (w.step? env i).bind (turns env is)

end Pool
end LintGate
