import LintGate.Program.Basic

/-!
# What programs ask

There are two views of what a program asks.  On a machine it is the history of one run;
then it matters what the run comes to, and in which order things are asked.  On all
machines at once it is what the program allows itself, whatever is answered.

## Main definitions

* `Program.Ran` — one run on a machine: what it asked, what it came to, and where the
  machine is then.
* `Program.Asks` — a program that asks nothing but what is allowed, on any machine.
* `KeepsRegistry` — a machine that keeps the registry of the process as it is asked to.

## Main results

* `Program.ran_bind_iff`, `Action.ran_bind_iff` — the run of one program after another.
* `Program.Ran.forall_mem` — what is allowed is all that is asked.
* `KeepsRegistry.of_ran` — who asks for nothing of the registry leaves it as it is.
-/

namespace LintGate

namespace Program

variable {α β σ : Type} {answer : (r : Request) → σ → r.Answer × σ} {s s' : σ}
  {asked : List Request}

/-! ### One run -/

/-- A run on a machine: what was asked, what it came to, and where the machine is then. -/
structure Ran (answer : (r : Request) → σ → r.Answer × σ) (p : Program α) (s : σ)
    (asked : List Request) (a : α) (s' : σ) : Prop where
  run_eq : p.run answer s = (a, s')
  history_eq : p.history answer s = asked

theorem ran_run (p : Program α) (s : σ) :
    Ran answer p s (p.history answer s) (p.run answer s).1 (p.run answer s).2 := ⟨rfl, rfl⟩

/-- A program has one run from a state. -/
theorem Ran.unique {p : Program α} {asked' : List Request} {a a' : α} {s'' : σ}
    (h : Ran answer p s asked a s') (h' : Ran answer p s asked' a' s'') :
    asked' = asked ∧ a' = a ∧ s'' = s' := by
  obtain ⟨hrun, rfl⟩ := h
  obtain ⟨hrun', rfl⟩ := h'
  obtain ⟨rfl, rfl⟩ := Prod.mk.inj (hrun'.symm.trans hrun)
  exact ⟨rfl, rfl, rfl⟩

theorem ran_done_iff {a b : α} :
    Ran answer (done a) s asked b s' ↔ asked = [] ∧ b = a ∧ s' = s := by
  constructor
  · rintro ⟨hrun, rfl⟩
    exact ⟨rfl, (Prod.mk.inj hrun).1.symm, (Prod.mk.inj hrun).2.symm⟩
  · rintro ⟨rfl, rfl, rfl⟩
    exact ⟨rfl, rfl⟩

theorem ran_ask_iff {r : Request} {next : r.Answer → Program α} {a : α} :
    Ran answer (ask r next) s asked a s' ↔
      ∃ more, asked = r :: more ∧
        Ran answer (next (answer r s).1) (answer r s).2 more a s' := by
  constructor
  · rintro ⟨hrun, rfl⟩
    exact ⟨_, rfl, hrun, rfl⟩
  · rintro ⟨more, rfl, hrun, rfl⟩
    exact ⟨hrun, rfl⟩

theorem ran_send_iff {r : Request} {x : r.Answer} :
    Ran answer (send r) s asked x s' ↔ asked = [r] ∧ answer r s = (x, s') := by
  rw [send, ran_ask_iff]
  simp only [ran_done_iff]
  constructor
  · rintro ⟨more, rfl, rfl, rfl, rfl⟩
    exact ⟨rfl, rfl⟩
  · rintro ⟨rfl, h⟩
    rw [h]
    exact ⟨[], rfl, rfl, rfl, rfl⟩

/-- The run of one program after another. -/
theorem ran_bind_iff {p : Program α} {f : α → Program β} {b : β} :
    Ran answer (p.bind f) s asked b s' ↔ ∃ first a s₁ rest,
      Ran answer p s first a s₁ ∧ Ran answer (f a) s₁ rest b s' ∧ asked = first ++ rest := by
  constructor
  · rintro ⟨hrun, rfl⟩
    rw [run_bind] at hrun
    exact ⟨_, _, _, _, ran_run p s, ⟨hrun, rfl⟩, history_bind p f s⟩
  · rintro ⟨first, a, s₁, rest, ⟨hrun, rfl⟩, ⟨hrest, rfl⟩, rfl⟩
    refine ⟨?_, ?_⟩
    · rw [run_bind, hrun, hrest]
    · rw [history_bind, hrun]

/-! ### All runs -/

/-- A program that asks nothing but what is allowed, whatever is answered. -/
def Asks (allowed : Request → Prop) : Program α → Prop
  | done _ => True
  | ask r next => allowed r ∧ ∀ x, (next x).Asks allowed

variable {allowed allowed' : Request → Prop}

theorem asks_done (a : α) : (done a).Asks allowed := trivial

theorem asks_send {r : Request} (h : allowed r) : (send r).Asks allowed := ⟨h, fun _ => trivial⟩

theorem Asks.bind {p : Program α} {f : α → Program β} (hp : p.Asks allowed)
    (hf : ∀ a, (f a).Asks allowed) : (p.bind f).Asks allowed := by
  induction p with
  | done a => exact hf a
  | ask r next ih => exact ⟨hp.1, fun x => ih x (hp.2 x)⟩

theorem Asks.mono {p : Program α} (hp : p.Asks allowed) (h : ∀ r, allowed r → allowed' r) :
    p.Asks allowed' := by
  induction p with
  | done a => trivial
  | ask r next ih => exact ⟨h r hp.1, fun x => ih x (hp.2 x)⟩

/-- What is allowed is all that is asked. -/
theorem Ran.forall_mem {p : Program α} {a : α} (h : Ran answer p s asked a s')
    (hp : p.Asks allowed) : ∀ r ∈ asked, allowed r := by
  induction p generalizing s asked with
  | done b =>
    rw [(ran_done_iff.mp h).1]
    exact fun r hr => absurd hr List.not_mem_nil
  | ask r next ih =>
    obtain ⟨more, rfl, hmore⟩ := ran_ask_iff.mp h
    intro r' hr'
    rcases List.mem_cons.mp hr' with rfl | hr'
    · exact hp.1
    · exact ih _ hmore (hp.2 _) r' hr'

end Program

/-! ### Programs that may end with a fault -/

namespace Action

open Program

variable {α β σ : Type} {answer : (r : Request) → σ → r.Answer × σ} {s s' : σ}
  {asked : List Request} {allowed : Request → Prop}

theorem run_bind_eq (p : Action α) (f : α → Action β) :
    (p >>= f).run = p.run.bind fun x =>
      match x with
      | .ok a => (f a).run
      | .error e => .done (.error e) :=
  (ExceptT.run_bind p f).trans (congrArg p.run.bind (funext fun x => by cases x <;> rfl))

/-! ### One run -/

/-- The run of one program after another: the second runs only if the first succeeded. -/
theorem ran_bind_iff {p : Action α} {f : α → Action β} {x : Except Fault β} :
    Ran answer (p >>= f).run s asked x s' ↔
      (∃ e, Ran answer p.run s asked (.error e) s' ∧ x = .error e) ∨
      ∃ first a s₁ rest, Ran answer p.run s first (.ok a) s₁ ∧
        Ran answer (f a).run s₁ rest x s' ∧ asked = first ++ rest := by
  rw [run_bind_eq, Program.ran_bind_iff]
  constructor
  · rintro ⟨first, y, s₁, rest, hp, hf, rfl⟩
    cases y with
    | ok a => exact Or.inr ⟨first, a, s₁, rest, hp, hf, rfl⟩
    | error e =>
      obtain ⟨rfl, rfl, rfl⟩ := ran_done_iff.mp hf
      rw [List.append_nil]
      exact Or.inl ⟨e, hp, rfl⟩
  · rintro (⟨e, hp, rfl⟩ | ⟨first, a, s₁, rest, hp, hf, rfl⟩)
    · exact ⟨asked, .error e, s', [], hp, ran_done_iff.mpr ⟨rfl, rfl, rfl⟩,
        (List.append_nil _).symm⟩
    · exact ⟨first, .ok a, s₁, rest, hp, hf, rfl⟩

/-- What is left of a run after a program that succeeded. -/
theorem ran_of_ran_bind {p : Action α} {f : α → Action β} {first : List Request} {a : α} {s₁ : σ}
    {x : Except Fault β} (hp : Ran answer p.run s first (.ok a) s₁)
    (h : Ran answer (p >>= f).run s asked x s') :
    ∃ rest, Ran answer (f a).run s₁ rest x s' ∧ asked = first ++ rest := by
  rcases ran_bind_iff.mp h with ⟨e, hfail, rfl⟩ | ⟨first', a', s₁', rest, hp', hrest, rfl⟩
  · obtain ⟨-, he, -⟩ := hp.unique hfail
    cases he
  · obtain ⟨rfl, ha, rfl⟩ := hp.unique hp'
    cases ha
    exact ⟨rest, hrest, rfl⟩

theorem ran_pure_iff {a : α} {x : Except Fault α} :
    Ran answer (pure a : Action α).run s asked x s' ↔ asked = [] ∧ x = .ok a ∧ s' = s :=
  ran_done_iff

theorem ran_throw_iff {e : Fault} {x : Except Fault α} :
    Ran answer (throw e : Action α).run s asked x s' ↔ asked = [] ∧ x = .error e ∧ s' = s :=
  ran_done_iff

theorem ran_throw_bind_iff {e : Fault} {f : α → Action β} {x : Except Fault β} :
    Ran answer (throw e >>= f : Action β).run s asked x s' ↔
      asked = [] ∧ x = .error e ∧ s' = s := ran_done_iff

theorem run_lift_bind (p : Program α) (f : α → Action β) :
    (ExceptT.lift p >>= f : Action β).run = p.bind fun a => (f a).run := by
  have hrun : (ExceptT.lift p : Action α).run = p.bind fun a => .done (.ok a) := rfl
  rw [run_bind_eq, hrun, bind_assoc]
  rfl

/-- What a program without faults comes to is passed on. -/
theorem ran_lift_bind_iff {p : Program α} {f : α → Action β} {x : Except Fault β} :
    Ran answer (ExceptT.lift p >>= f : Action β).run s asked x s' ↔ ∃ first a s₁ rest,
      Ran answer p s first a s₁ ∧ Ran answer (f a).run s₁ rest x s' ∧ asked = first ++ rest := by
  rw [run_lift_bind, Program.ran_bind_iff]

theorem ran_trial_iff {p : Program (Except OsFault α)} {fault : OsFault → Fault}
    {x : Except Fault α} :
    Ran answer (trial p fault).run s asked x s' ↔
      ∃ y, Ran answer p s asked y s' ∧ x = y.mapError fault := by
  have hrun : (trial p fault).run = p.bind fun y => .done (y.mapError fault) := rfl
  rw [hrun, Program.ran_bind_iff]
  simp only [ran_done_iff]
  constructor
  · rintro ⟨first, y, s₁, rest, hp, ⟨rfl, rfl, rfl⟩, rfl⟩
    exact ⟨y, by rwa [List.append_nil], rfl⟩
  · rintro ⟨y, hp, rfl⟩
    exact ⟨asked, y, s', [], hp, ⟨rfl, rfl, rfl⟩, (List.append_nil _).symm⟩

theorem ran_always_iff {p : Action α} {last : Program Unit} {x : Except Fault α} :
    Ran answer (always p last).run s asked x s' ↔ ∃ first s₁ rest,
      Ran answer p.run s first x s₁ ∧ Ran answer last s₁ rest () s' ∧ asked = first ++ rest := by
  have hrun : (always p last).run = p.run.bind fun x => last.bind fun _ => .done x := rfl
  rw [hrun, Program.ran_bind_iff]
  simp only [Program.ran_bind_iff, ran_done_iff]
  constructor
  · rintro ⟨first, y, s₁, _, hp, ⟨rest, _, s₂, _, hlast, ⟨rfl, rfl, rfl⟩, rfl⟩, rfl⟩
    exact ⟨first, s₁, rest, hp, hlast, by rw [List.append_nil]⟩
  · rintro ⟨first, s₁, rest, hp, hlast, rfl⟩
    exact ⟨first, x, s₁, rest, hp,
      ⟨rest, (), s', [], hlast, ⟨rfl, rfl, rfl⟩, (List.append_nil _).symm⟩, rfl⟩

/-! ### All runs -/

theorem asks_pure (a : α) : (pure a : Action α).run.Asks allowed := trivial

theorem asks_throw (e : Fault) : (throw e : Action α).run.Asks allowed := trivial

theorem asks_bind {p : Action α} {f : α → Action β} (hp : p.run.Asks allowed)
    (hf : ∀ a, (f a).run.Asks allowed) : (p >>= f).run.Asks allowed := by
  rw [run_bind_eq]
  refine hp.bind fun x => ?_
  cases x with
  | ok a => exact hf a
  | error e => trivial

theorem asks_lift {p : Program α} (hp : p.Asks allowed) :
    (ExceptT.lift p : Action α).run.Asks allowed := hp.bind fun _ => trivial

theorem asks_trial {p : Program (Except OsFault α)} (hp : p.Asks allowed)
    (fault : OsFault → Fault) : (trial p fault).run.Asks allowed := hp.bind fun _ => trivial

theorem asks_always {p : Action α} {last : Program Unit} (hp : p.run.Asks allowed)
    (hlast : last.Asks allowed) : (always p last).run.Asks allowed :=
  hp.bind fun _ => hlast.bind fun _ => trivial

end Action

/-! ### The registry of a process -/

/-- Whether a request changes the registry. -/
def Request.ChangesRegistry : Request → Prop
  | .registry (.isRemoved _) => False
  | .registry _ => True
  | _ => False

/-- A machine that keeps the registry of the process: a step on it is done as it is asked
for, and nothing else changes it. -/
structure KeepsRegistry {σ : Type} (answer : (r : Request) → σ → r.Answer × σ)
    (registry : σ → Registry) : Prop where
  answer_eq : ∀ op s, (answer (.registry op) s).1 = ((registry s).apply op).1
  step_eq : ∀ op s, registry (answer (.registry op) s).2 = ((registry s).apply op).2
  other_eq : ∀ r s, (∀ op, r ≠ .registry op) → registry (answer r s).2 = registry s

namespace KeepsRegistry

variable {α σ : Type} {answer : (r : Request) → σ → r.Answer × σ} {registry : σ → Registry}
  {s s' : σ} {asked : List Request}

theorem registry_answer (hk : KeepsRegistry answer registry) {r : Request}
    (hr : ¬ r.ChangesRegistry) (s : σ) : registry (answer r s).2 = registry s := by
  by_cases h : ∃ op, r = .registry op
  · obtain ⟨op, rfl⟩ := h
    rw [hk.step_eq]
    cases op with
    | isRemoved c => rfl
    | _ => exact absurd trivial hr
  · exact hk.other_eq r s (not_exists.mp h)

/-- Who asks for no change of the registry leaves it as it is. -/
theorem of_ran (hk : KeepsRegistry answer registry) {p : Program α} {a : α}
    (h : p.Ran answer s asked a s') (hr : ∀ r ∈ asked, ¬ r.ChangesRegistry) :
    registry s' = registry s := by
  induction p generalizing s asked with
  | done b => rw [(Program.ran_done_iff.mp h).2.2]
  | ask r next ih =>
    obtain ⟨more, rfl, hmore⟩ := Program.ran_ask_iff.mp h
    rw [ih _ hmore fun r' hr' => hr r' (List.mem_cons_of_mem r hr'),
      hk.registry_answer (hr r List.mem_cons_self)]

end KeepsRegistry
end LintGate
