import Mathlib.Algebra.GroupWithZero.Nat
import Mathlib.Algebra.Order.Group.Multiset
import LintGate.Proofs.Sandbox.Story
import LintGate.Strategy

/-!
# What a program owes to the containers it holds

Each program that takes part has some containers in its hands, and at times a duty: a
container that it was asked to start has to be marked, one whose last place it gave up has
to be claimed, one whose removal it claimed has to be removed.  A program keeps its custody
if it never asks for anything that its hands and its duty do not allow, and is free of
duties at the end.

## Main definitions

* `Duty`, `Custody` — what a program owes, and what it holds.
* `Custody.permits`, `Custody.next` — what it may ask for, and where an answer leads.
* `Keeps` — the programs that keep their custody.

## Main results

* `keeps_create`, `keeps_drop`, `keeps_removeAll`, `keeps_lint` — the programs that touch
  containers keep it.
-/

namespace LintGate

/-- The name of the container that was given a token. -/
def gateName (token : String) : String := "shellcheck-gate-" ++ token

/-- What a program has to do next. -/
inductive Duty
  | free
  /-- Make the container that a token names. -/
  | create (token : String)
  /-- Have it started. -/
  | start (c : Container)
  /-- Record that it was started. -/
  | mark (c : Container)
  /-- Claim its removal, as nobody holds it any longer. -/
  | claim (c : Container)
  /-- Have it removed. -/
  | remove (c : Container)
  deriving DecidableEq

/-- What a program holds and owes, and the container it knows to be started in time. -/
structure Custody where
  held : Multiset Container := 0
  duty : Duty := .free
  assured : Option Container := none

namespace Custody

/-- Whether custody allows a request. -/
def permits (k : Custody) (r : Request) : Prop :=
  match k.duty, r with
  | .free, .run cmd => cmd.startOf? = none ∧ cmd.removalOf? = none
  | .free, .registry (.create _) | .free, .registry (.markStarted _) => False
  | .free, .registry (.claim c) | .free, .registry (.release c) => c ∈ k.held
  | .free, _ => True
  | .create t, .registry (.create c) => c.name = gateName t
  | .start _, .registry (.enlist _) => True
  | .start c, .run cmd => cmd.startOf? = some c ∧ cmd.removalOf? = none
  | .mark c, .registry (.markStarted c') => c' = c ∧ c ∈ k.held
  | .claim c, .registry (.claim c') => c' = c
  | .remove c, .run cmd => cmd.removalOf? = some c
  | _, _ => False

section Permits

variable {s : Multiset Container} {a : Option Container} {c : Container} {r : Request}

/-- Who has to claim a removal can ask for nothing else. -/
theorem request_of_claim (h : permits ⟨s, .claim c, a⟩ r) : r = .registry (.claim c) := by
  cases r with
  | registry op =>
    cases op with
    | claim c' =>
      obtain rfl : c' = c := h
      rfl
    | _ => exact h.elim
  | _ => exact h.elim

theorem request_of_remove (h : permits ⟨s, .remove c, a⟩ r) :
    ∃ cmd, r = .run cmd ∧ cmd.removalOf? = some c := by
  cases r with
  | run cmd => exact ⟨cmd, rfl, h⟩
  | _ => exact h.elim

theorem held_of_mark (h : permits ⟨s, .mark c, a⟩ r) : c ∈ s := by
  cases r with
  | registry op =>
    cases op with
    | markStarted c' => exact h.2
    | _ => exact h.elim
  | _ => exact h.elim

end Permits

/-- The custody after an answer. -/
def next (k : Custody) : (r : Request) → r.Answer → Custody
  | .token, t => { k with duty := .create t }
  | .run _, x =>
    match k.duty with
    | .start c => { k with duty := if ranWell x then .mark c else .free }
    | _ => { k with duty := .free }
  | .registry (.create c), _ => { k with held := c ::ₘ k.held, duty := .start c }
  | .registry (.markStarted c), true => { k with duty := .free, assured := some c }
  | .registry (.markStarted c), false => { k with duty := .remove c }
  | .registry (.claim c), x => { k with duty := if x then .remove c else .free }
  | .registry (.acquire c), true => { k with held := c ::ₘ k.held }
  | .registry (.release c), x =>
    { k with held := k.held.erase c, duty := if x then .claim c else .free }
  | _, _ => k

end Custody

/-- A program keeps its custody, whatever is answered, and ends as told. -/
def Keeps {α : Type} (post : α → Custody → Prop) : Program α → Custody → Prop
  | .done a, k => post a k
  | .ask r next, k => k.permits r ∧ ∀ x, Keeps post (next x) (k.next r x)

section Programs

variable {α β : Type}

/-- One program after another: the second one takes over what the first one leaves. -/
theorem keeps_bind {post : β → Custody → Prop} {f : α → Program β} :
    ∀ {p : Program α} {k : Custody},
      Keeps (fun a k' => Keeps post (f a) k') p k → Keeps post (p.bind f) k
  | .done _, _, h => h
  | .ask _ _, _, h => ⟨h.1, fun x => keeps_bind (h.2 x)⟩

theorem Keeps.mono {post post' : α → Custody → Prop} (hpost : ∀ a k, post a k → post' a k) :
    ∀ {p : Program α} {k : Custody}, Keeps post p k → Keeps post' p k
  | .done a, k, h => hpost a k h
  | .ask _ _, _, h => ⟨h.1, fun x => (h.2 x).mono hpost⟩

/-- A program after one that ends in a custody that is known. -/
theorem keeps_bind_of {p : Program α} {f : α → Program β} {post : β → Custody → Prop}
    {k : Custody} {g : α → Custody} (hp : Keeps (fun a k' => k' = g a) p k)
    (hf : ∀ a, Keeps post (f a) (g a)) : Keeps post (p.bind f) k :=
  keeps_bind (hp.mono fun a _ h => h ▸ hf a)

/-- A program without faults, and what is done after it. -/
theorem keeps_lift {p : Program α} {f : α → Action β} {post : Except Fault β → Custody → Prop}
    {k : Custody} {g : α → Custody} (hp : Keeps (fun a k' => k' = g a) p k)
    (hf : ∀ a, Keeps post (f a).run (g a)) : Keeps post (ExceptT.lift p >>= f).run k := by
  rw [ExceptT.run_bind_lift]
  exact keeps_bind_of hp hf

/-- A step on the registry that custody permits. -/
theorem keeps_step {op : Registry.Op} {f : op.Answer → Program β} {post : β → Custody → Prop}
    {k : Custody} (hop : k.permits (.registry op))
    (hf : ∀ x, Keeps post (f x) (k.next (.registry op) x)) :
    Keeps post (Container.step op >>= f) k :=
  ⟨hop, hf⟩

variable {s : Multiset Container} {a : Option Container} {c : Container}

theorem keeps_forceRemove :
    Keeps (fun _ k => k = ⟨s, .free, a⟩) c.forceRemove ⟨s, .remove c, a⟩ :=
  ⟨rfl, fun _ => rfl⟩

/-- The removal that follows a claim, if the claim was the first. -/
theorem keeps_removal (first : Bool) :
    Keeps (fun _ k => k = ⟨s, .free, a⟩) (if first = true then c.forceRemove else pure ())
      ⟨s, if first = true then .remove c else .free, a⟩ := by
  cases first with
  | true => exact keeps_forceRemove
  | false => exact rfl

theorem keeps_remove_held (hc : c ∈ s) :
    Keeps (fun _ k => k = ⟨s, .free, a⟩) c.remove ⟨s, .free, a⟩ :=
  keeps_step hc keeps_removal

theorem keeps_remove_last :
    Keeps (fun _ k => k = ⟨s, .free, a⟩) c.remove ⟨s, .claim c, a⟩ :=
  keeps_step rfl keeps_removal

/-- Who gives up the last place removes the container. -/
theorem keeps_drop (hc : c ∈ s) :
    Keeps (fun _ k => k = ⟨s.erase c, .free, a⟩) c.drop ⟨s, .free, a⟩ := by
  refine keeps_step hc fun last => ?_
  cases last with
  | true => exact keeps_remove_last
  | false => exact rfl

theorem keeps_markStarted (hc : c ∈ s) :
    Keeps (fun ok k => k = ⟨s, .free, if ok = true then some c else a⟩) c.markStarted
      ⟨s, .mark c, a⟩ := by
  refine keeps_step ⟨rfl, hc⟩ fun inTime => ?_
  cases inTime with
  | true => exact rfl
  | false =>
    exact keeps_bind_of (f := fun _ => pure false) keeps_forceRemove fun _ => rfl

theorem keeps_acquireAll (cs : List Container) : ∀ s : Multiset Container,
    Keeps (fun (live : List Container) k => k = ⟨live + s, .free, a⟩)
      (Container.acquireAll cs) ⟨s, .free, a⟩ := by
  induction cs with
  | nil => exact fun s => congrArg (Custody.mk · _ _) (zero_add s).symm
  | cons c cs ih =>
    refine fun s => keeps_step trivial fun held => ?_
    cases held with
    | true =>
      refine keeps_bind_of (f := fun live => pure (c :: live)) (ih (c ::ₘ s)) fun live => ?_
      refine congrArg (Custody.mk · _ _) ?_
      rw [← Multiset.cons_coe, Multiset.cons_add, Multiset.add_cons]
    | false => exact ih s

theorem keeps_forEach_remove (cs : List Container) (hcs : ∀ c ∈ cs, c ∈ s) :
    Keeps (fun _ k => k = ⟨s, .free, a⟩) (Container.forEach Container.remove cs)
      ⟨s, .free, a⟩ := by
  induction cs with
  | nil => exact rfl
  | cons c cs ih =>
    exact keeps_bind_of (keeps_remove_held (hcs c List.mem_cons_self)) fun _ =>
      ih fun c' hc' => hcs c' (List.mem_cons_of_mem _ hc')

theorem keeps_forEach_drop (cs : List Container) :
    Keeps (fun _ k => k = ⟨s, .free, a⟩) (Container.forEach Container.drop cs)
      ⟨cs + s, .free, a⟩ := by
  induction cs with
  | nil => exact congrArg (Custody.mk · _ _) (zero_add s)
  | cons c cs ih =>
    have hheld : c ∈ ((c :: cs : List Container) : Multiset Container) + s :=
      Multiset.mem_add.mpr (Or.inl (Multiset.mem_coe.mpr List.mem_cons_self))
    refine keeps_bind_of (keeps_drop hheld) fun _ => ?_
    rw [← Multiset.cons_coe, Multiset.cons_add, Multiset.erase_cons_head]
    exact ih

/-- **An interrupt gives up again all that it takes hold of.** -/
theorem keeps_removeAll :
    Keeps (fun _ k => k = ⟨s, .free, a⟩) Container.removeAll ⟨s, .free, a⟩ := by
  refine keeps_step trivial fun pending => ?_
  -- What was acquired is held on top of what was held before, until all of it is dropped.
  refine keeps_bind_of (keeps_acquireAll pending s) fun live => ?_
  refine keeps_bind_of (keeps_forEach_remove live fun c hc => ?_) fun _ => ?_
  · exact Multiset.mem_add.mpr (Or.inl (Multiset.mem_coe.mpr hc))
  · exact keeps_bind_of (f := fun _ => pure live.length) (keeps_forEach_drop live) fun _ => rfl

/-- A start ends with a container that was started in time, or with a fault. -/
theorem keeps_start (image root : String) (hc : c ∈ s) :
    Keeps (fun x k => k = ⟨s, .free, if x.isOk then some c else a⟩)
      (Sandbox.start image root c).run ⟨s, .start c, a⟩ := by
  have hmark (f : Fault) : Keeps
      (fun x k => k = ⟨s, .free, if Except.isOk x = true then some c else a⟩)
      (ExceptT.lift c.markStarted >>= fun inTime =>
        if (!inTime) = true then throw f else pure () : Action Unit).run ⟨s, .mark c, a⟩ := by
    refine keeps_lift (keeps_markStarted hc) fun inTime => ?_
    cases inTime with
    | true => exact rfl
    | false => exact rfl
  refine ⟨⟨rfl, rfl⟩, fun x => ?_⟩
  cases x with
  | error e => exact rfl
  | ok o =>
    -- The duty to record the start arises exactly where the program goes on to do so.
    simp only [Custody.next, ranWell, Program.done_bind, Except.mapError, ExceptT.bindCont]
    by_cases ho : o.status.isSuccess = true
    · simp only [ho]
      exact hmark _
    · simp only [ho]
      exact rfl

/-- **A container that was created is held once and started in time**; one that could not
be is held no longer. -/
theorem keeps_create (sc : SandboxConfig) (t : ToolConfig) (root : String) :
    Keeps (fun x k => match x with
      | .ok box => k = ⟨{box.container}, .free, some box.container⟩
      | .error _ => k = {}) (Sandbox.create sc t root).run {} := by
  refine ⟨trivial, fun token => ⟨rfl, fun _ => ⟨trivial, fun _ => ?_⟩⟩⟩
  refine keeps_lift (keeps_start t.image root (Multiset.mem_singleton_self _)) fun x => ?_
  cases x with
  | ok _ => exact rfl
  | error f => 
    refine keeps_lift (keeps_drop (Multiset.mem_singleton_self _)) fun _ => ?_
    exact congrArg (Custody.mk · _ _) (Multiset.erase_cons_head _ 0)

/-- Linting in a sandbox leaves its container alone. -/
theorem keeps_lint (box : Sandbox) (args : List String) (script : ScriptPath) :
    Keeps (fun _ k => k = ⟨s, .free, a⟩) ((Strategy.sandbox box args).lint script).run
      ⟨s, .free, a⟩ := by
  refine ⟨trivial, fun removed => ?_⟩
  cases removed with
  | true => exact rfl
  | false => 
    refine ⟨⟨rfl, rfl⟩, fun x => ?_⟩
    cases x <;> exact rfl

end Programs
end LintGate
