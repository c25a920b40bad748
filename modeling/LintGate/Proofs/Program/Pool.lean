import LintGate.Program.Basic

/-!
# Programs side by side

Several programs run side by side and share one registry.  Whenever it is its turn, a
program gets the answer to one request, so a step on the registry or a command is one step
that nothing else comes between; the turns may come in any order.  The registry and the
tokens are answered by what they are.  All else is up to an environment, which knows what
happened so far and may answer anything.

## Main definitions

* `Event`, `Pool` — what happened, and how far each program got.
* `Environment`, `Pool.reply` — who answers, and what.
* `Pool.step?` — the turn of one program.

## Main results

* `Pool.step?_cases` — all that a turn can do.
* `Pool.reply_token`, `Pool.reply_registry`, `Pool.reply_other` — what the answers are, and what
  they leave as it is.
-/

namespace LintGate

/-- A request of one of the programs, and the answer it got. -/
structure Event where
  thread : Nat
  request : Request
  answer : request.Answer

/-- Whether a program had a command run. -/
def Event.isCommand (e : Event) : Bool :=
  match e.request with
  | .run _ => true
  | _ => false

/-- Programs that run side by side, the registry they share, the tokens that were handed
out, and what happened so far. -/
structure Pool (ρ : Type) where
  registry : Registry := {}
  drawn : List String := []
  threads : List (Program ρ) := []
  log : List Event := []

/-- What answers the requests; it knows what happened before. -/
abbrev Environment := List Event → (r : Request) → r.Answer

namespace Pool

variable {ρ : Type}

/-- The answer to a request, with the registry and the tokens after it.  There is none if
the environment hands out a token for the second time. -/
def reply (env : Environment) (w : Pool ρ) :
    (r : Request) → Option (r.Answer × Registry × List String)
  | .registry op => some ((w.registry.apply op).1, (w.registry.apply op).2, w.drawn)
  | .token =>
    if env w.log .token ∈ w.drawn then none
    else some (env w.log .token, w.registry, env w.log .token :: w.drawn)
  | r => some (env w.log r, w.registry, w.drawn)

/-- The turn of a program, unless it is done. -/
def step? (env : Environment) (w : Pool ρ) (i : Nat) : Option (Pool ρ) :=
  match w.threads[i]? with
  | some (.ask r next) => (w.reply env r).map fun (x, registry, drawn) =>
      ⟨registry, drawn, w.threads.set i (next x), w.log ++ [⟨i, r, x⟩]⟩
  | _ => none

/-- Starts one more program. -/
def spawn (w : Pool ρ) (p : Program ρ) : Pool ρ := { w with threads := w.threads ++ [p] }

variable {env : Environment} {w w' : Pool ρ} {i : Nat}

/-- All that a turn can do: it answers the request of the program, and records that. -/
theorem step?_cases (h : w.step? env i = some w') :
    ∃ r next x registry drawn, w.threads[i]? = some (.ask r next) ∧
      w.reply env r = some (x, registry, drawn) ∧
      w' = ⟨registry, drawn, w.threads.set i (next x), w.log ++ [⟨i, r, x⟩]⟩ := by
  unfold step? at h
  split at h
  · next r next hi =>
    obtain ⟨⟨x, registry, drawn⟩, hx, he⟩ := Option.map_eq_some_iff.mp h
    exact ⟨r, next, x, registry, drawn, hi, hx, he.symm⟩
  · exact absurd h (by simp)

/-- The turn of a program that asks something of the registry. -/
theorem step?_registry {op : Registry.Op} {next : op.Answer → Program ρ}
    (hi : w.threads[i]? = some (.ask (.registry op) next)) :
    w.step? env i = some ⟨(w.registry.apply op).2, w.drawn,
      w.threads.set i (next (w.registry.apply op).1),
      w.log ++ [⟨i, .registry op, (w.registry.apply op).1⟩]⟩ := by
  rw [step?, hi]
  rfl

/-- Tokens are handed out once. -/
theorem reply_token {x : String} {registry : Registry} {drawn : List String}
    (h : w.reply env .token = some (x, registry, drawn)) :
    x ∉ w.drawn ∧ registry = w.registry ∧ drawn = x :: w.drawn := by
  change (if env w.log .token ∈ w.drawn then none
    else some (env w.log .token, w.registry, env w.log .token :: w.drawn)) = _ at h
  split at h
  · exact absurd h (by simp)
  · next hfresh =>
    simp only [Option.some.injEq, Prod.mk.injEq] at h
    obtain ⟨rfl, rfl, rfl⟩ := h
    exact ⟨hfresh, rfl, rfl⟩

/-- A step on the registry is answered by what the registry is. -/
theorem reply_registry {op : Registry.Op} {x : op.Answer} {registry : Registry}
    {drawn : List String} (h : w.reply env (.registry op) = some (x, registry, drawn)) :
    x = (w.registry.apply op).1 ∧ registry = (w.registry.apply op).2 ∧ drawn = w.drawn := by
  cases h
  exact ⟨rfl, rfl, rfl⟩

/-- Who asks for nothing of the registry and for no token leaves both as they are. -/
theorem reply_other {r : Request} {x : r.Answer} {registry : Registry} {drawn : List String}
    (h : w.reply env r = some (x, registry, drawn)) (ht : r ≠ .token)
    (hr : ∀ op, r ≠ .registry op) : registry = w.registry ∧ drawn = w.drawn := by
  cases r <;> first
    | exact absurd rfl ht
    | exact absurd rfl (hr _)
    | (simp only [reply, Option.some.injEq, Prod.mk.injEq] at h; exact ⟨h.2.1.symm, h.2.2.symm⟩)

/-- No token is handed out twice. -/
theorem nodup_reply {r : Request} {x : r.Answer} {registry : Registry} {drawn : List String}
    (h : w.reply env r = some (x, registry, drawn)) (hw : w.drawn.Nodup) : drawn.Nodup := by
  cases r with
  | token =>
    obtain ⟨hx, -, rfl⟩ := reply_token h
    exact List.nodup_cons.mpr ⟨hx, hw⟩
  | registry op =>
    obtain ⟨-, -, rfl⟩ := reply_registry h
    exact hw
  | _ =>
    obtain ⟨-, rfl⟩ := reply_other h (by simp) (by simp)
    exact hw

@[simp] theorem threads_spawn (p : Program ρ) : (w.spawn p).threads = w.threads ++ [p] := rfl

end Pool
end LintGate
