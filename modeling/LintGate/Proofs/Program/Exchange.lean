import LintGate.Proofs.Program.Trace

/-!
# What is exchanged with a machine

A run of a program is a way through the program and a dialogue with the machine at once: a
list of exchanges, each a request and its answer.  Seen from the program, the answers choose
the way.  Seen from the machine, each answer is given where the exchanges before it led.

## Main definitions

* `Exchange` — a request and its answer.
* `exchanges`, `afterwards` — the answers of a machine that is asked one thing after another,
  and where it is then.
* `Program.Path` — a way through a program.
* `commands` — the commands among the exchanges, with what came of them.

## Main results

* `Program.Ran.path` — a run is a way through its program.
* `Program.path_bind`, `Action.path_bind` — the ways through one program and then another.
* `forall_exchanges` — what each answer keeps, all answers keep.
* `KeepsRegistry.registry_afterwards` — the registry after a dialogue.
-/

namespace LintGate

/-- A request and its answer. -/
structure Exchange where
  request : Request
  answer : request.Answer

/-- The command of an exchange, and what came of it. -/
def Exchange.command? : Exchange → Option (Command × Except OsFault Output)
  | ⟨.run c, x⟩ => some (c, x)
  | _ => none

/-! ### Dialogues -/

section Dialogue

variable {σ : Type} (answer : (r : Request) → σ → r.Answer × σ)

/-- What is exchanged with a machine that is asked one thing after another. -/
def exchanges : σ → List Request → List Exchange
  | _, [] => []
  | s, r :: rs => ⟨r, (answer r s).1⟩ :: exchanges (answer r s).2 rs

/-- Where the machine is then. -/
def afterwards : σ → List Request → σ
  | s, [] => s
  | s, r :: rs => afterwards (answer r s).2 rs

/-- The commands that a machine is asked to run, and what comes of them. -/
def commands (s : σ) (asked : List Request) : List (Command × Except OsFault Output) :=
  (exchanges answer s asked).filterMap Exchange.command?

variable {answer} {s s' : σ} {asked : List Request}

@[simp] theorem exchanges_append (s : σ) (first rest : List Request) :
    exchanges answer s (first ++ rest) =
      exchanges answer s first ++ exchanges answer (afterwards answer s first) rest := by
  induction first generalizing s with
  | nil => rfl
  | cons r first ih => exact congrArg (_ :: ·) (ih _)

@[simp] theorem afterwards_append (s : σ) (first rest : List Request) :
    afterwards answer s (first ++ rest) = afterwards answer (afterwards answer s first) rest := by
  induction first generalizing s with
  | nil => rfl
  | cons r first ih => exact ih _

theorem map_request_exchanges (answer : (r : Request) → σ → r.Answer × σ) (s : σ)
    (asked : List Request) : (exchanges answer s asked).map Exchange.request = asked := by
  induction asked generalizing s with
  | nil => rfl
  | cons r asked ih => exact congrArg (r :: ·) (ih _)

theorem commands_append (s : σ) (first rest : List Request) :
    commands answer s (first ++ rest) =
      commands answer s first ++ commands answer (afterwards answer s first) rest := by
  rw [commands, exchanges_append, List.filterMap_append]
  rfl

/-- Where nothing but steps on the registry and output is asked for, no command is run. -/
theorem commands_eq_nil (h : ∀ r ∈ asked, ∀ c, r ≠ .run c) : commands answer s asked = [] := by
  induction asked generalizing s with
  | nil => rfl
  | cons r asked ih =>
    have hr := h r List.mem_cons_self
    have hrest := ih (s := (answer r s).2) fun r' hr' => h r' (List.mem_cons_of_mem r hr')
    cases r with
    | run c => exact absurd rfl (hr c)
    | _ => exact hrest

/-- Whatever was exchanged was asked for, and answered somewhere. -/
theorem exists_of_mem_exchanges {e : Exchange} (h : e ∈ exchanges answer s asked) :
    ∃ r ∈ asked, ∃ u, e = ⟨r, (answer r u).1⟩ := by
  induction asked generalizing s with
  | nil => exact absurd h List.not_mem_nil
  | cons r asked ih =>
    rcases List.mem_cons.mp h with rfl | h
    · exact ⟨r, List.mem_cons_self, s, rfl⟩
    · obtain ⟨r', hr', u, rfl⟩ := ih h
      exact ⟨r', List.mem_cons_of_mem r hr', u, rfl⟩

/-- What each answer keeps and shows, all answers keep and show. -/
theorem forall_exchanges (shown : Exchange → Prop) {good : σ → Prop} {allowed : Request → Prop}
    (hstep : ∀ r s, allowed r → good s → good (answer r s).2 ∧ shown ⟨r, (answer r s).1⟩)
    (hs : good s) (hr : ∀ r ∈ asked, allowed r) :
    good (afterwards answer s asked) ∧ ∀ e ∈ exchanges answer s asked, shown e := by
  induction asked generalizing s with
  | nil => exact ⟨hs, fun e he => absurd he List.not_mem_nil⟩
  | cons r asked ih =>
    obtain ⟨hnext, hshown⟩ := hstep r s (hr r List.mem_cons_self) hs
    obtain ⟨hlast, hall⟩ := ih hnext fun r' hr' => hr r' (List.mem_cons_of_mem r hr')
    refine ⟨hlast, fun e he => ?_⟩
    rcases List.mem_cons.mp he with rfl | he
    · exact hshown
    · exact hall e he

end Dialogue

/-! ### Ways through a program -/

namespace Program

variable {α σ : Type} {answer : (r : Request) → σ → r.Answer × σ} {s s' : σ}
  {asked : List Request}

/-- A way through a program: what it can exchange, and what it comes to then. -/
inductive Path : Program α → List Exchange → α → Prop
  | done (a : α) : Path (done a) [] a
  | ask {r : Request} {next : r.Answer → Program α} (x : r.Answer) {es : List Exchange} {a : α}
      (h : Path (next x) es a) : Path (ask r next) (⟨r, x⟩ :: es) a

theorem Ran.afterwards_eq {p : Program α} {a : α} (h : Ran answer p s asked a s') :
    afterwards answer s asked = s' := by
  induction p generalizing s asked with
  | done b =>
    obtain ⟨rfl, -, rfl⟩ := ran_done_iff.mp h
    rfl
  | ask r next ih =>
    obtain ⟨more, rfl, hmore⟩ := ran_ask_iff.mp h
    rw [afterwards]
    exact ih _ hmore

/-- A run is a way through its program. -/
theorem Ran.path {p : Program α} {a : α} (h : Ran answer p s asked a s') :
    Path p (exchanges answer s asked) a := by
  induction p generalizing s asked with
  | done b =>
    obtain ⟨rfl, rfl, -⟩ := ran_done_iff.mp h
    exact .done a
  | ask r next ih =>
    obtain ⟨more, rfl, hmore⟩ := ran_ask_iff.mp h
    exact .ask _ (ih _ hmore)

end Program

/-- A way through a program has only requests that the program allows itself. -/
theorem Program.Path.forall_mem {α : Type} {p : Program α} {es : List Exchange} {a : α}
    {allowed : Request → Prop} (h : p.Path es a) (hp : p.Asks allowed) :
    ∀ e ∈ es, allowed e.request := by
  induction h with
  | done a => exact fun e he => absurd he List.not_mem_nil
  | ask x _ ih =>
    intro e he
    rcases List.mem_cons.mp he with rfl | he
    · exact hp.1
    · exact ih (hp.2 x) e he

/-- The ways through one program and then another. -/
theorem Program.path_bind {α β : Type} {p : Program α} {f : α → Program β} {es : List Exchange}
    {b : β} (h : (p.bind f).Path es b) :
    ∃ first a rest, es = first ++ rest ∧ p.Path first a ∧ (f a).Path rest b := by
  induction p generalizing es with
  | done a => exact ⟨[], a, es, rfl, .done a, h⟩
  | ask r next ih =>
    cases h with
    | ask x h =>
      obtain ⟨first, a, rest, rfl, hp, hf⟩ := ih x h
      exact ⟨⟨r, x⟩ :: first, a, rest, rfl, .ask x hp, hf⟩

/-- The ways through two programs that may end with a fault: the second is gone only if the first
succeeded. -/
theorem Action.path_bind {α β : Type} {p : Action α} {f : α → Action β} {es : List Exchange}
    {x : Except Fault β} (h : Program.Path (p >>= f).run es x) :
    (∃ e, Program.Path p.run es (.error e) ∧ x = .error e) ∨
      ∃ first a rest, es = first ++ rest ∧ Program.Path p.run first (.ok a) ∧
        Program.Path (f a).run rest x := by
  rw [run_bind_eq] at h
  obtain ⟨first, y, rest, rfl, hp, hf⟩ := Program.path_bind h
  cases y with
  | ok a => exact Or.inr ⟨first, a, rest, rfl, hp, hf⟩
  | error e =>
    cases hf with
    | done =>
      rw [List.append_nil]
      exact Or.inl ⟨e, hp, rfl⟩

theorem Action.path_lift_bind {α β : Type} {p : Program α} {f : α → Action β} {es : List Exchange}
    {x : Except Fault β} (h : Program.Path (ExceptT.lift p >>= f : Action β).run es x) :
    ∃ first a rest, es = first ++ rest ∧ p.Path first a ∧ Program.Path (f a).run rest x :=
  Program.path_bind (run_lift_bind p f ▸ h)

theorem Program.path_send {r : Request} {es : List Exchange} {x : r.Answer}
    (h : (send r).Path es x) : es = [⟨r, x⟩] := by
  cases h with
  | ask _ h =>
    cases h with
    | done => rfl

/-- What a way through a program comes to, and where it ends, is settled by its exchanges. -/
theorem Program.Path.unique {α : Type} {p : Program α} {first first' rest rest' : List Exchange}
    {a a' : α} (h : p.Path first a) (h' : p.Path first' a')
    (he : first ++ rest = first' ++ rest') : first' = first ∧ a' = a ∧ rest' = rest := by
  induction h generalizing first' with
  | done a =>
    cases h' with
    | done => exact ⟨rfl, rfl, he.symm⟩
  | ask x _ ih =>
    cases h' with
    | ask x' h' =>
      obtain ⟨hx, hrest⟩ := List.cons.inj he
      cases hx
      obtain ⟨rfl, rfl, rfl⟩ := ih h' hrest
      exact ⟨rfl, rfl, rfl⟩

/-! ### The registry after a dialogue -/

/-- What a request leaves of a registry. -/
def Registry.after (g : Registry) : Request → Registry
  | .registry op => (g.apply op).2
  | _ => g

/-- What changes no registry leaves it as it is. -/
theorem Registry.foldl_after_eq {g : Registry} {asked : List Request}
    (h : ∀ r ∈ asked, ¬ r.ChangesRegistry) : asked.foldl Registry.after g = g := by
  induction asked generalizing g with
  | nil => rfl
  | cons r asked ih =>
    have hr := h r List.mem_cons_self
    have hsame : g.after r = g := by
      cases r with
      | registry op =>
        cases op with
        | isRemoved k => rfl
        | _ => exact absurd trivial hr
      | _ => rfl
    rw [List.foldl_cons, hsame]
    exact ih fun r' hr' => h r' (List.mem_cons_of_mem r hr')

namespace KeepsRegistry

variable {σ : Type} {answer : (r : Request) → σ → r.Answer × σ} {registry : σ → Registry}

theorem registry_eq_after (hk : KeepsRegistry answer registry) (r : Request) (s : σ) :
    registry (answer r s).2 = (registry s).after r := by
  cases r with
  | registry op => exact hk.step_eq op s
  | _ => exact hk.other_eq _ s (by simp)

/-- The registry after a dialogue. -/
theorem registry_afterwards (hk : KeepsRegistry answer registry) (s : σ) (asked : List Request) :
    registry (afterwards answer s asked) = asked.foldl Registry.after (registry s) := by
  induction asked generalizing s with
  | nil => rfl
  | cons r asked ih =>
    rw [afterwards, ih, hk.registry_eq_after, List.foldl_cons]

/-- A dialogue without a change of the registry leaves it as it is. -/
theorem registry_afterwards_eq (hk : KeepsRegistry answer registry) {s : σ} {asked : List Request}
    (h : ∀ r ∈ asked, ¬ r.ChangesRegistry) : registry (afterwards answer s asked) = registry s := by
  rw [hk.registry_afterwards, Registry.foldl_after_eq h]

end KeepsRegistry
end LintGate
