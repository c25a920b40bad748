import LintGate.Proofs.Interrupt.Process

/-!
# Programs that leave a removal to the last holder

The run of a process claims the removal of its container only when it gave up the last place.
The clean-up claims a removal only if it took hold of the container, and then it says so at the
end.

## Main definitions

* `Program.Patient`, `Program.Careful` — programs that claim a removal only after they gave up
  the last place, and those among them that take hold of nothing.
* `Program.Ends` — programs that end as told.

## Main results

* `careful_perform` — **the run of a process is careful.**
* `patient_cleanUp` — **the clean-up is patient** until it finds a container.
-/

namespace LintGate

open Program

/-! ### Patient programs -/

namespace Program

variable {α β : Type}

/-- Whether a program is about to claim the removal of a container. -/
def claims (c : Container) : Program α → Bool
  | .ask (.registry (.claim c')) _ => c' == c
  | _ => false

/-- A program that ends as told, whatever is answered. -/
def Ends (post : α → Prop) : Program α → Prop
  | .done a => post a
  | .ask _ next => ∀ x, (next x).Ends post

end Program

/-- Whether an answer means that one more place holds a container. -/
def Request.takesHold : (r : Request) → r.Answer → Bool
  | .registry (.acquire _), x => x
  | _, _ => false

/-- Whether an answer means that the last place gave up a container. -/
def Request.givesUp (c : Container) : (r : Request) → r.Answer → Bool
  | .registry (.release c'), x => c' == c && x
  | _, _ => false

/-- Programs that claim the removal of a container only right after they gave up the last place.
Once it takes hold of a container, a program is as told. -/
def Program.Patient {α : Type} (late : Program α → Prop) : Program α → Prop
  | .done _ => True
  | .ask r next => ∀ x,
    if r.takesHold x = true then late (next x)
    else (∀ c, (next x).claims c = true → r.givesUp c x = true) ∧ (next x).Patient late

/-- Whether a request neither claims a removal nor takes hold of a container. -/
def Request.Unclaiming : Request → Prop
  | .registry (.claim _) | .registry (.acquire _) => False
  | _ => True

theorem Request.Neutral.unclaiming {r : Request} (h : r.Neutral) : r.Unclaiming := by
  cases r with
  | registry op =>
    cases op with
    | isRemoved c => trivial
    | _ => exact h.elim
  | _ => trivial

namespace Program

variable {α β : Type} {late late' : Program α → Prop}

theorem Patient.mono {p : Program α} (h : p.Patient late) (hlate : ∀ q, late q → late' q) :
    p.Patient late' := by
  induction p with
  | done a => trivial
  | ask r next ih =>
    intro x
    have hx := h x
    split
    · next hhold =>
      rw [if_pos hhold] at hx
      exact hlate _ hx
    · next hhold =>
      rw [if_neg hhold] at hx
      exact ⟨hx.1, ih x hx.2⟩

/-- Patient programs that take hold of no container and do not begin with a claim. -/
structure Careful (p : Program α) : Prop where
  claims : ∀ c, p.claims c = false
  patient : p.Patient fun _ => False

theorem careful_done (a : α) : (done a).Careful := ⟨fun _ => rfl, trivial⟩

theorem claims_bind {p : Program α} {f : α → Program β} {c : Container}
    (hf : ∀ a, (f a).claims c = false) : (p.bind f).claims c = p.claims c := by
  cases p with
  | done a => exact hf a
  | ask r next =>
    cases r with
    | registry op => cases op <;> rfl
    | _ => rfl

/-- A patient program after a careful one. -/
theorem Careful.patient_bind {p : Program α} {f : α → Program β} {late : Program β → Prop}
    (hp : p.Careful) (hf : ∀ a, (∀ c, (f a).claims c = false) ∧ (f a).Patient late) :
    (p.bind f).Patient late := by
  have hpatient := hp.patient
  clear hp
  induction p with
  | done a => exact (hf a).2
  | ask r next ih =>
    intro x
    have hx := hpatient x
    split
    · next hhold =>
      rw [if_pos hhold] at hx
      exact hx.elim
    · next hhold =>
      rw [if_neg hhold] at hx
      refine ⟨fun c hc => hx.1 c ?_, ih x hx.2⟩
      rwa [claims_bind fun a => (hf a).1 c] at hc

/-- One careful program after another. -/
theorem Careful.bind {p : Program α} {f : α → Program β} (hp : p.Careful)
    (hf : ∀ a, (f a).Careful) : (p.bind f).Careful :=
  ⟨fun c => (claims_bind fun a => (hf a).claims c).trans (hp.claims c),
    hp.patient_bind fun a => ⟨(hf a).claims, (hf a).patient⟩⟩

/-- Who asks for no claim and takes hold of nothing is careful. -/
theorem careful_of_asks {p : Program α} (hp : p.Asks Request.Unclaiming) : p.Careful := by
  induction p with
  | done a => exact careful_done a
  | ask r next ih =>
    obtain ⟨hr, hnext⟩ := hp
    have hclaims : ∀ c, (ask r next).claims c = false := fun c => by
      cases r with
      | registry op => cases op <;> first
        | rfl
        | exact hr.elim
      | _ => rfl
    have hhold : ∀ x, r.takesHold x = false := fun x => by
      cases r with
      | registry op => cases op <;> first
        | rfl
        | exact hr.elim
      | _ => rfl
    refine ⟨hclaims, fun x => ?_⟩
    rw [if_neg (by rw [hhold]; exact Bool.false_ne_true)]
    have hx := ih x (hnext x)
    exact ⟨fun c hc => absurd ((hx.claims c).symm.trans hc) Bool.false_ne_true, hx.patient⟩

/-- Who gives up the last place claims the removal at once. -/
theorem careful_drop (c : Container) : c.drop.Careful := by
  refine ⟨fun _ => rfl, fun last => ⟨?_, ?_⟩⟩
  · cases last with
    | true =>
      intro c' hc'
      have hsame : (c == c') = true := hc'
      exact Bool.and_eq_true_iff.mpr ⟨hsame, rfl⟩
    | false => exact fun c' hc' => by cases hc'
  · cases last with
    | true =>
      intro first
      refine ⟨?_, ?_⟩
      · cases first <;> exact fun c' hc' => by cases hc'
      · have hremove : (if first = true then c.forceRemove else pure ()).Careful := by
          cases first with
          | true => exact careful_of_asks ⟨trivial, fun _ => trivial⟩
          | false => exact careful_done ()
        exact hremove.patient
    | false => trivial

end Program

namespace Action

variable {α β : Type}

theorem careful_bind {p : Action α} {f : α → Action β} (hp : p.run.Careful)
    (hf : ∀ y, (f y).run.Careful) : (p >>= f).run.Careful := by
  rw [run_bind_eq]
  refine hp.bind fun x => ?_
  cases x with
  | ok y => exact hf y
  | error e => exact careful_done _

theorem careful_of_neutral {p : Action α} (hp : p.run.Asks Request.Neutral) : p.run.Careful :=
  careful_of_asks (hp.mono fun _ hr => hr.unclaiming)

theorem careful_lift {p : Program α} (hp : p.Careful) :
    (ExceptT.lift p : Action α).run.Careful := hp.bind fun _ => careful_done _

end Action

/-! ### The run and the clean-up -/

theorem Sandbox.asks_start (image root : String) (c : Container) :
    (start image root c).run.Asks Request.Unclaiming := by
  refine Action.asks_bind (Action.asks_trial (asks_send trivial) _) fun o => ?_
  have hmark : c.markStarted.Asks Request.Unclaiming := by
    refine Asks.bind (asks_send trivial) fun inTime => ?_
    cases inTime with
    | true => exact asks_done _
    | false =>
      have hremove : c.forceRemove.Asks Request.Unclaiming :=
        Asks.bind (asks_send trivial) fun _ => asks_done _
      exact hremove.bind fun _ => asks_done _
  split
  · exact Action.asks_throw _
  · refine Action.asks_bind (Action.asks_lift hmark) fun inTime => ?_
    split
    · exact Action.asks_throw _
    · exact Action.asks_pure _

theorem Sandbox.careful_create (s : SandboxConfig) (t : ToolConfig) (root : String) :
    (create s t root).run.Careful := by
  have hask : ∀ r : Request, r.Unclaiming → (Action.ask r).run.Careful := fun r hr =>
    Action.careful_lift (careful_of_asks (asks_send hr))
  refine Action.careful_bind (hask .token trivial) fun token => ?_
  refine Action.careful_bind (hask (.registry (.create _)) trivial) fun _ => ?_
  refine Action.careful_bind (hask (.registry (.enlist _)) trivial) fun _ => ?_
  refine Action.careful_bind (Action.careful_lift (careful_of_asks (asks_start ..))) fun x => ?_
  cases x with
  | ok _ => exact careful_done _
  | error f =>
    exact Action.careful_bind (Action.careful_lift (careful_drop _)) fun _ => careful_done _

theorem Strategy.careful_release (strategy : Strategy) : strategy.release.Careful := by
  unfold release
  split
  · exact careful_drop _
  · exact careful_done _

theorem Strategy.careful_ofSource (installer : Installer) (c : Config) (root : String)
    (source : ToolSource) : (ofSource installer c root source).run.Careful := by
  cases source with
  | hostBinary => exact careful_done _
  | sandbox => exact Action.careful_bind (Sandbox.careful_create ..) fun _ => careful_done _
  | download p =>
    have hensure := (Installer.asks_ensure installer c.tool p).mono fun _ hr => hr.neutral
    exact Action.careful_bind (Action.careful_of_neutral hensure) fun _ => careful_done _

theorem Verify.careful_run (u : Surroundings) (o : VerifyOptions) : (run u o).run.Careful := by
  rw [run_eq]
  have hload := (asks_load u o).mono fun _ hr => hr.neutral
  refine Action.careful_bind (Action.careful_of_neutral hload) fun l => ?_
  refine Action.careful_bind (Action.careful_of_neutral (Git.asks_findScripts _ _))
    fun scripts => ?_
  refine Action.careful_bind ?_ fun strategy => ?_
  · have hselect : (ExceptT.mk ((Detect.probe u).select l.2.1) : Action ToolSource).run.Asks
        Request.Neutral := (Strategy.asks_select u l.2.1).mono fun _ hr => hr.neutral
    exact Action.careful_bind (Action.careful_of_neutral hselect) fun source =>
      Strategy.careful_ofSource ..
  · refine Action.careful_bind ?_ fun outcomes => Action.careful_bind ?_ fun _ => careful_done _
    · refine Careful.bind (careful_of_asks ?_) fun x =>
        (Strategy.careful_release strategy).bind fun _ => careful_done _
      refine LintRun.asks_lint o.jobs fun x _ => (Strategy.asks_lint strategy x).mono fun r hr => ?_
      rcases hr with rfl | ⟨k, -, rfl⟩ <;> trivial
    · exact Action.careful_of_neutral ((asks_write _).mono fun _ hr => hr.neutral)

/-- **The run of a process is careful.** -/
theorem careful_perform (u : Surroundings) (i : Invocation) : (i.perform u).run.Careful := by
  obtain ⟨task, config, verbosity, quiet⟩ := i
  cases task with
  | verify path jobs format => exact Verify.careful_run u ⟨path, config, jobs, format⟩
  | toolStatus path format =>
    have hstatus := Action.careful_of_neutral (ToolStatusTask.asks_run u path config format)
    exact Action.careful_bind hstatus fun _ => careful_done _

/-- What a clean-up ends with if it found a container. -/
def Result.IsFind : Result → Prop
  | .swept n => 0 < n
  | _ => False

theorem Program.Ends.bind {α β : Type} {post : β → Prop} {f : α → Program β}
    (hf : ∀ a, (f a).Ends post) (p : Program α) : (p.bind f).Ends post := by
  induction p with
  | done a => exact hf a
  | ask r next ih => exact fun x => ih x

/-- Whoever tries to take hold of containers is patient until it takes hold of one. -/
theorem Container.patient_acquireAll {α : Type} {post : α → Prop}
    (f : List Container → Program α) (hnone : (f []).Careful)
    (hsome : ∀ c cs, (f (c :: cs)).Ends post) (cs : List Container) :
    (∀ c, ((acquireAll cs).bind f).claims c = false) ∧
      ((acquireAll cs).bind f).Patient fun p => p.Ends post := by
  induction cs with
  | nil => exact ⟨hnone.claims, hnone.patient.mono fun _ h => h.elim⟩
  | cons c cs ih =>
    refine ⟨fun _ => rfl, fun held => ?_⟩
    cases held with
    | true =>
      show (((acquireAll cs).bind fun live => .done (c :: live)).bind f).Ends post
      rw [Program.bind_assoc]
      exact Ends.bind (fun live => hsome c live) _
    | false => exact ⟨fun c hc => absurd ((ih.1 c).symm.trans hc) Bool.false_ne_true, ih.2⟩

/-- **The clean-up is patient** until it finds a container. -/
theorem patient_cleanUp : Process.cleanUp.Patient fun p => p.Ends Result.IsFind := by
  have htell : (Program.send (.tell Gate.interruptText)).Careful :=
    careful_of_asks (asks_send trivial)
  -- what is done with the containers that were taken hold of
  let takeDown := fun held : List Container =>
    (Container.forEach Container.remove held).bind fun _ =>
      (Container.forEach Container.drop held).bind fun _ =>
        (done (.swept (decide (0 < held.length)).toNat) : Program Result)
  have hcleanUp : Process.cleanUp = (Program.send (.tell Gate.interruptText)).bind fun _ =>
      (Container.step .drain).bind fun listed => (Container.acquireAll listed).bind takeDown := by
    have hbind : ∀ {α β : Type} (p : Program α) (f : α → Program β), p >>= f = p.bind f :=
      fun _ _ => rfl
    simp only [Process.cleanUp, Gate.interrupt, Container.removeAll, hbind, Program.bind_assoc]
    rfl
  have hnone : (takeDown []).Careful := careful_done _
  have hsome : ∀ c cs, (takeDown (c :: cs)).Ends Result.IsFind := fun c cs => by
    refine Ends.bind (fun _ => Ends.bind (fun _ => ?_) _) _
    show Result.IsFind (.swept (decide (0 < cs.length + 1)).toNat)
    rw [decide_eq_true (Nat.succ_pos _)]
    exact Nat.one_pos
  rw [hcleanUp]
  refine htell.patient_bind fun _ => ⟨fun _ => rfl, fun listed => ?_⟩
  have hlisted := Container.patient_acquireAll takeDown hnone hsome listed
  exact ⟨fun c hc => absurd ((hlisted.1 c).symm.trans hc) Bool.false_ne_true, hlisted.2⟩

end LintGate
