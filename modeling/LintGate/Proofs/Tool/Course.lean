import LintGate.Proofs.Program.Exchange
import LintGate.Tool.Install

/-!
# The course of an installation

An executable is looked at first.  If it has to be installed, one step follows another until
one fails.  An archive and a directory to unpack it are made for the time being, and each is
removed at the end, whatever came of the steps in between.

## Main definitions

* `Installer.Verified` — an executable that is a file and reports a version.
* `Installer.Settling`, `Installer.Trial`, `Installer.Course` — what can happen once there is a
  directory to unpack in, once there is an archive, and altogether.

## Main results

* `Installer.ran_cached` — what a look at the executable finds.
* `Installer.ran_download` — what the server sends is written, unless it refuses.
* `Installer.settling_of_ran`, `Installer.trial_of_ran`, `Installer.course_of_ran` — each run is
  one of these.
-/

namespace LintGate
namespace Installer

open Program

variable {σ : Type} {answer : (r : Request) → σ → r.Answer × σ} {i : Installer} {t : ToolConfig}
  {p : Platform} {s s' : σ} {asked : List Request}

/-- The run of something after a step that the system may refuse. -/
theorem ran_trial_bind {α β : Type} {q : Program (Except OsFault α)} {fault : OsFault → Fault}
    {f : α → Action β} {x : Except Fault β}
    (h : Ran answer (Action.trial q fault >>= f).run s asked x s') :
    (∃ e, Ran answer q s asked (.error e) s' ∧ x = .error (fault e)) ∨
      ∃ first a s₁ rest, Ran answer q s first (.ok a) s₁ ∧ Ran answer (f a).run s₁ rest x s' ∧
        asked = first ++ rest := by
  rcases Action.ran_bind_iff.mp h with ⟨e, htrial, rfl⟩ | ⟨first, a, s₁, rest, htrial, hrest, rfl⟩
  · obtain ⟨y, hy, he⟩ := Action.ran_trial_iff.mp htrial
    cases y with
    | ok a => exact nomatch he
    | error f =>
      cases he
      exact Or.inl ⟨f, hy, rfl⟩
  · obtain ⟨y, hy, he⟩ := Action.ran_trial_iff.mp htrial
    cases y with
    | error f => exact nomatch he
    | ok b =>
      cases he
      exact Or.inr ⟨first, a, s₁, rest, hy, hrest, rfl⟩

/-! ### Looking at the executable -/

/-- The question for the version that an executable reports. -/
abbrev versionQuestion (binary : String) : Request := .run ⟨binary, ["--version"], none⟩

/-- What is asked of an executable that is verified. -/
def questions (binary : String) : List Request := [.isFile binary, versionQuestion binary]

/-- Whether a version is told by what came of the question. -/
def Tells (version : String) : Except OsFault Output → Prop
  | .ok o => o.status.isSuccess = true ∧ VersionEntry.find? o.outText = some version.toList
  | .error _ => False

/-- An executable is a file and reports a version. -/
structure Verified (answer : (r : Request) → σ → r.Answer × σ) (s : σ) (binary version : String) :
    Prop where
  isFile : (answer (.isFile binary) s).1 = true
  tells : Tells version (answer (versionQuestion binary) (answer (.isFile binary) s).2).1

/-- The version that is told by what came of the question. -/
def told? : Except OsFault Output → Option String
  | .ok o =>
    if o.status.isSuccess then (VersionEntry.find? o.outText).map String.ofList else none
  | .error _ => none

theorem told?_eq_some_iff {x : Except OsFault Output} {version : String} :
    told? x = some version ↔ Tells version x := by
  cases x with
  | error e => exact ⟨nofun, nofun⟩
  | ok o =>
    rw [told?, Tells]
    cases o.status.isSuccess with
    | false => simp
    | true =>
      rw [if_pos rfl, Option.map_eq_some_iff]
      constructor
      · rintro ⟨v, hv, rfl⟩
        rw [hv, String.toList_ofList]
        exact ⟨rfl, rfl⟩
      · rintro ⟨-, hv⟩
        exact ⟨_, hv, String.ofList_toList⟩

theorem verified_iff {binary version : String} :
    Verified answer s binary version ↔ (answer (.isFile binary) s).1 = true ∧
      told? (answer (versionQuestion binary) (answer (.isFile binary) s).2).1 = some version :=
  ⟨fun h => ⟨h.isFile, told?_eq_some_iff.mpr h.tells⟩,
    fun h => ⟨h.1, told?_eq_some_iff.mp h.2⟩⟩

instance (answer : (r : Request) → σ → r.Answer × σ) (s : σ) (binary version : String) :
    Decidable (Verified answer s binary version) := decidable_of_iff _ verified_iff.symm

theorem ran_version?_iff {binary : String} {v : Option String} :
    Ran answer (Detect.version? binary) s asked v s' ↔
      asked = [versionQuestion binary] ∧ ∃ x, answer (versionQuestion binary) s = (x, s') ∧
        v = told? x := by
  have hversion : Detect.version? binary =
      .ask (versionQuestion binary) fun x => .done (told? x) := by
    refine congrArg (Program.ask (versionQuestion binary)) (funext fun x => ?_)
    cases x with
    | error e => rfl
    | ok o =>
      rw [done_bind, told?]
      dsimp only
      cases o.status.isSuccess <;> rfl
  rw [hversion, ran_ask_iff]
  simp only [ran_done_iff]
  constructor
  · rintro ⟨more, rfl, rfl, rfl, rfl⟩
    exact ⟨rfl, _, rfl, rfl⟩
  · rintro ⟨rfl, x, hx, rfl⟩
    rw [hx]
    exact ⟨[], rfl, rfl, rfl, rfl⟩

/-- **A look at the executable** finds it if it is verified. -/
theorem ran_cached {found : Option String} (h : Ran answer (i.cached t) s asked found s') :
    (found = some (t.binaryPath i.root) ∧ Verified answer s (t.binaryPath i.root) t.version ∧
        asked = questions (t.binaryPath i.root)) ∨
      found = none ∧ ¬ Verified answer s (t.binaryPath i.root) t.version ∧
        asked ⊆ questions (t.binaryPath i.root) := by
  obtain ⟨first, status, s₁, rest, hfile, hdone, rfl⟩ := ran_bind_iff.mp h
  obtain ⟨rfl, rfl, rfl⟩ := ran_done_iff.mp hdone
  obtain ⟨_, there, s₂, more, hlook, hmore, rfl⟩ := ran_bind_iff.mp hfile
  obtain ⟨rfl, hthere⟩ := ran_send_iff.mp hlook
  cases there with
  | false =>
    obtain ⟨rfl, rfl, rfl⟩ := ran_done_iff.mp hmore
    refine Or.inr ⟨rfl, fun hv => ?_, by simp [questions]⟩
    have hfile := hv.isFile
    rw [hthere] at hfile
    exact nomatch hfile
  | true =>
    obtain ⟨second, v, s₃, last, hversion, hlast, rfl⟩ := ran_bind_iff.mp hmore
    obtain ⟨rfl, x, hx, rfl⟩ := ran_version?_iff.mp hversion
    have hverified : Verified answer s (t.binaryPath i.root) t.version ↔
        told? x = some t.version := by
      rw [verified_iff, hthere, hx]
      exact and_iff_right rfl
    cases hv : told? x with
    | none =>
      rw [hv] at hlast
      obtain ⟨rfl, rfl, -⟩ := ran_done_iff.mp hlast
      refine Or.inr ⟨rfl, ?_, by simp [questions]⟩
      rw [hverified, hv]
      exact nofun
    | some v =>
      rw [hv] at hlast
      obtain ⟨rfl, rfl, -⟩ := ran_done_iff.mp hlast
      have hmatch : ToolStatus.matchesVersion
          ⟨true, some (t.binaryPath i.root), some v, .downloaded⟩ t.version = true ↔
          v = t.version := by simp [ToolStatus.matchesVersion]
      by_cases hvt : v = t.version
      · rw [if_pos (hmatch.mpr hvt)]
        exact Or.inl ⟨rfl, hverified.mpr (by rw [hv, hvt]), rfl⟩
      · rw [if_neg (mt hmatch.mp hvt)]
        refine Or.inr ⟨rfl, ?_, by simp [questions]⟩
        rw [hverified, hv, Option.some_inj]
        exact hvt

/-! ### Putting a release in its place -/

/-- Making room at a path: what is there is removed. -/
inductive MakesRoom (answer : (r : Request) → σ → r.Answer × σ) (target : String) :
    σ → List Request → Except OsFault Unit → σ → Prop
  | free {s s' : σ} (h : answer (.isThere target) s = (false, s')) :
      MakesRoom answer target s [.isThere target] (.ok ()) s'
  | taken {s s₁ s' : σ} {x : Except OsFault Unit} (h : answer (.isThere target) s = (true, s₁))
      (hr : answer (.removeTree target) s₁ = (x, s')) :
      MakesRoom answer target s [.isThere target, .removeTree target] x s'

/-- A release is put in its place in two steps. -/
theorem ran_replace {url staging : String} {x : Except Fault Unit}
    (h : Ran answer (i.replace t url staging).run s asked x s') :
    (∃ e, MakesRoom answer (t.releaseDir i.root) s asked (.error e) s' ∧ x = .error (.os e)) ∨
      ∃ room s₁ y, MakesRoom answer (t.releaseDir i.root) s room (.ok ()) s₁ ∧
        answer (.rename (t.releaseDir staging) (t.releaseDir i.root)) s₁ = (y, s') ∧
        (x = .ok () ↔ y = .ok ()) ∧
        asked = room ++ [.rename (t.releaseDir staging) (t.releaseDir i.root)] := by
  have hmoved {fault : OsFault → Fault} {s₁ : σ} {rest : List Request}
      (h : Ran answer (Action.trial
        (.send (.rename (t.releaseDir staging) (t.releaseDir i.root))) fault).run s₁ rest x s') :
      ∃ y, answer (.rename (t.releaseDir staging) (t.releaseDir i.root)) s₁ = (y, s') ∧
        (x = .ok () ↔ y = .ok ()) ∧
        rest = [.rename (t.releaseDir staging) (t.releaseDir i.root)] := by
    obtain ⟨y, hask, rfl⟩ := Action.ran_trial_iff.mp h
    obtain ⟨rfl, hy⟩ := ran_send_iff.mp hask
    refine ⟨y, hy, ?_, rfl⟩
    cases y with
    | ok _ => exact ⟨fun _ => rfl, fun _ => rfl⟩
    | error e => exact ⟨nofun, nofun⟩
  obtain ⟨_, there, s₁, more, hlook, hmore, rfl⟩ := Action.ran_lift_bind_iff.mp h
  obtain ⟨rfl, hthere⟩ := ran_send_iff.mp hlook
  cases there with
  | false =>
    obtain ⟨y, hy, hx, rfl⟩ := hmoved hmore
    exact Or.inr ⟨_, s₁, y, .free hthere, hy, hx, rfl⟩
  | true =>
    rcases ran_trial_bind hmore with ⟨e, hask, rfl⟩ | ⟨_, _, s₂, last, hask, hlast, rfl⟩
    · obtain ⟨rfl, hr⟩ := ran_send_iff.mp hask
      exact Or.inl ⟨e, .taken hthere hr, rfl⟩
    · obtain ⟨rfl, hr⟩ := ran_send_iff.mp hask
      obtain ⟨y, hy, hx, rfl⟩ := hmoved hlast
      exact Or.inr ⟨_, s₂, y, .taken hthere hr, hy, hx, rfl⟩

/-! ### Step after step -/

/-- The request to unpack an archive into a directory. -/
abbrev unpacking (archive dir : String) : Request := .run ⟨"tar", ["-xJf", archive], some dir⟩

/-- Whether a command ran and succeeded. -/
def Succeeds (x : Except OsFault Output) : Prop := ∃ o, x = .ok o ∧ o.status.isSuccess = true

/-- What can happen once there is a directory to unpack in. -/
inductive Settling (answer : (r : Request) → σ → r.Answer × σ) (i : Installer) (t : ToolConfig)
    (url archive staging : String) : σ → List Request → Except Fault String → σ → Prop
  | notUnpacked {s s' : σ} {o : Except OsFault Output} {fault : Fault}
      (hu : answer (unpacking archive staging) s = (o, s')) (ho : ¬ Succeeds o) :
      Settling answer i t url archive staging s [unpacking archive staging] (.error fault) s'
  | notReplaced {s u s' : σ} {o : Except OsFault Output} {replacing : List Request} {fault : Fault}
      (hu : answer (unpacking archive staging) s = (o, u)) (ho : Succeeds o)
      (hr : Ran answer (i.replace t url staging).run u replacing (.error fault) s') :
      Settling answer i t url archive staging s (unpacking archive staging :: replacing)
        (.error fault) s'
  | replaced {s u v s' : σ} {o : Except OsFault Output} {replacing looking : List Request}
      {found : Option String} {x : Except Fault String}
      (hu : answer (unpacking archive staging) s = (o, u)) (ho : Succeeds o)
      (hr : Ran answer (i.replace t url staging).run u replacing (.ok ()) v)
      (hc : Ran answer (i.cached t) v looking found s')
      (hx : ∀ b, x = .ok b ↔ found = some b) :
      Settling answer i t url archive staging s
        (unpacking archive staging :: (replacing ++ looking)) x s'

/-- What is asked for an archive with something in it and a directory to unpack it in. -/
abbrev fetching (i : Installer) (url archive : String) (content : Bytes) : List Request :=
  [.fetch url, .writeFile archive content, .tempDir i.root "extract-"]

/-- What is asked for an archive. -/
abbrev preparing (i : Installer) : List Request :=
  [.makeDirs i.root, .tempFile i.root "download-" ".tar.xz"]

theorem afterwards_fetching {url archive : String} {content : Bytes} {s₁ s₂ s₃ : σ}
    {x : Except FetchFault Reply} {y : Except OsFault Unit} {z : Except OsFault String}
    (hf : answer (.fetch url) s = (x, s₁)) (hw : answer (.writeFile archive content) s₁ = (y, s₂))
    (hd : answer (.tempDir i.root "extract-") s₂ = (z, s₃)) :
    afterwards answer s (i.fetching url archive content) = s₃ := by
  simp [afterwards, hf, hw, hd]

theorem afterwards_preparing {s₁ s₂ : σ} {x : Except OsFault Unit} {y : Except OsFault String}
    (hm : answer (.makeDirs i.root) s = (x, s₁))
    (hf : answer (.tempFile i.root "download-" ".tar.xz") s₁ = (y, s₂)) :
    afterwards answer s i.preparing = s₂ := by
  simp [afterwards, hm, hf]

/-- What can happen once there is an archive.  What the server sends is written into it, unless
the server refuses. -/
inductive Trial (answer : (r : Request) → σ → r.Answer × σ) (i : Installer) (t : ToolConfig)
    (url archive : String) : σ → List Request → Except Fault String → σ → Prop
  | notFetched {s s' : σ} {y : Except FetchFault Reply} {fault : Fault}
      (hf : answer (.fetch url) s = (y, s')) (hy : ∀ reply, y = .ok reply → refuses reply = true) :
      Trial answer i t url archive s [.fetch url] (.error fault) s'
  | notWritten {s s₁ s' : σ} {reply : Reply} {e : OsFault}
      (hf : answer (.fetch url) s = (.ok reply, s₁)) (hy : refuses reply = false)
      (hw : answer (.writeFile archive reply.body) s₁ = (.error e, s')) :
      Trial answer i t url archive s [.fetch url, .writeFile archive reply.body]
        (.error (downloadFault url .notStored)) s'
  | noStaging {s s₁ s₂ s' : σ} {reply : Reply} {e : OsFault} {fault : Fault}
      (hf : answer (.fetch url) s = (.ok reply, s₁)) (hy : refuses reply = false)
      (hw : answer (.writeFile archive reply.body) s₁ = (.ok (), s₂))
      (hd : answer (.tempDir i.root "extract-") s₂ = (.error e, s')) :
      Trial answer i t url archive s (i.fetching url archive reply.body) (.error fault) s'
  | staged {s s₁ s₂ s₃ s₄ s' : σ} {reply : Reply} {staging : String} {settling : List Request}
      {x : Except Fault String} {z : Except OsFault Unit}
      (hf : answer (.fetch url) s = (.ok reply, s₁)) (hy : refuses reply = false)
      (hw : answer (.writeFile archive reply.body) s₁ = (.ok (), s₂))
      (hd : answer (.tempDir i.root "extract-") s₂ = (.ok staging, s₃))
      (hs : Settling answer i t url archive staging s₃ settling x s₄)
      (hr : answer (.removeTree staging) s₄ = (z, s')) :
      Trial answer i t url archive s
        (i.fetching url archive reply.body ++ (settling ++ [.removeTree staging])) x s'

/-- What can happen altogether. -/
inductive Course (answer : (r : Request) → σ → r.Answer × σ) (i : Installer) (t : ToolConfig)
    (p : Platform) : σ → List Request → Except Fault String → σ → Prop
  | found {s s' : σ} {looking : List Request} {b : String}
      (hc : Ran answer (i.cached t) s looking (some b) s') :
      Course answer i t p s looking (.ok b) s'
  | noRoot {s s₁ s' : σ} {looking : List Request} {e : OsFault} {fault : Fault}
      (hc : Ran answer (i.cached t) s looking none s₁)
      (hm : answer (.makeDirs i.root) s₁ = (.error e, s')) :
      Course answer i t p s (looking ++ [.makeDirs i.root]) (.error fault) s'
  | noArchive {s s₁ s₂ s' : σ} {looking : List Request} {e : OsFault} {fault : Fault}
      (hc : Ran answer (i.cached t) s looking none s₁)
      (hm : answer (.makeDirs i.root) s₁ = (.ok (), s₂))
      (ha : answer (.tempFile i.root "download-" ".tar.xz") s₂ = (.error e, s')) :
      Course answer i t p s (looking ++ i.preparing) (.error fault) s'
  | tried {s s₁ s₂ s₃ s₄ s' : σ} {looking trying : List Request} {archive : String}
      {x : Except Fault String} {z : Except OsFault Unit}
      (hc : Ran answer (i.cached t) s looking none s₁)
      (hm : answer (.makeDirs i.root) s₁ = (.ok (), s₂))
      (ha : answer (.tempFile i.root "download-" ".tar.xz") s₂ = (.ok archive, s₃))
      (ht : Trial answer i t (t.releaseArchive p) archive s₃ trying x s₄)
      (hr : answer (.removeFile archive) s₄ = (z, s')) :
      Course answer i t p s
        (looking ++ (i.preparing ++ (trying ++ [.removeFile archive]))) x s'

theorem Settling.afterwards_eq {url archive staging : String} {x : Except Fault String}
    (h : Settling answer i t url archive staging s asked x s') :
    afterwards answer s asked = s' := by
  cases h with
  | notUnpacked hu ho => simp [afterwards, hu]
  | notReplaced hu ho hr => simp [afterwards, hu, hr.afterwards_eq]
  | replaced hu ho hr hc hx => simp [afterwards, hu, hr.afterwards_eq, hc.afterwards_eq]

theorem Trial.afterwards_eq {url archive : String} {x : Except Fault String}
    (h : Trial answer i t url archive s asked x s') : afterwards answer s asked = s' := by
  cases h with
  | notFetched hf hy => simp [afterwards, hf]
  | notWritten hf hy hw => simp [afterwards, hf, hw]
  | noStaging hf hy hw hd => exact afterwards_fetching hf hw hd
  | staged hf hy hw hd hs hr =>
    rw [afterwards_append, afterwards_fetching hf hw hd, afterwards_append, hs.afterwards_eq]
    simp [afterwards, hr]

/-! ### Each run is one of these -/

/-- A run that unpacks asks for it once. -/
theorem ran_unpack {archive dir : String} {x : Except Fault Unit}
    (h : Ran answer (unpack archive dir).run s asked x s') :
    asked = [unpacking archive dir] ∧ ∃ o, answer (unpacking archive dir) s = (o, s') ∧
      (x = .ok () ↔ Succeeds o) := by
  rcases ran_trial_bind h with ⟨e, hask, rfl⟩ | ⟨_, o, u, rest, hask, hrest, rfl⟩
  · obtain ⟨rfl, hu⟩ := ran_send_iff.mp hask
    exact ⟨rfl, _, hu, nofun, fun ⟨o, ho, _⟩ => nomatch ho⟩
  · obtain ⟨rfl, hu⟩ := ran_send_iff.mp hask
    cases ho : o.status.isSuccess with
    | false =>
      rw [ho] at hrest
      obtain ⟨rfl, rfl, rfl⟩ := Action.ran_throw_iff.mp hrest
      refine ⟨rfl, _, hu, nofun, fun ⟨o', he, ho'⟩ => ?_⟩
      cases he
      rw [ho] at ho'
      exact nomatch ho'
    | true =>
      rw [ho] at hrest
      obtain ⟨rfl, rfl, rfl⟩ := Action.ran_pure_iff.mp hrest
      exact ⟨rfl, _, hu, fun _ => ⟨o, rfl, ho⟩, fun _ => rfl⟩

/-- A run that downloads asks for it once.  If the server does not refuse, what it sends is
written. -/
theorem ran_download {url archive : String} {x : Except Fault Unit}
    (h : Ran answer (download url archive).run s asked x s') :
    (∃ y f, answer (.fetch url) s = (y, s') ∧ (∀ reply, y = .ok reply → refuses reply = true) ∧
        asked = [.fetch url] ∧ x = .error f) ∨
      ∃ reply s₁ y, answer (.fetch url) s = (.ok reply, s₁) ∧ refuses reply = false ∧
        answer (.writeFile archive reply.body) s₁ = (y, s') ∧
        asked = [.fetch url, .writeFile archive reply.body] ∧
        x = y.mapError fun _ => downloadFault url .notStored := by
  obtain ⟨_, y, s₁, rest, hask, hrest, rfl⟩ := Action.ran_lift_bind_iff.mp h
  obtain ⟨rfl, hy⟩ := ran_send_iff.mp hask
  cases y with
  | error f =>
    obtain ⟨rfl, rfl, rfl⟩ := Action.ran_throw_iff.mp hrest
    exact Or.inl ⟨_, _, hy, nofun, rfl, rfl⟩
  | ok reply =>
    cases hrefuses : refuses reply with
    | true =>
      dsimp only at hrest
      rw [if_pos hrefuses] at hrest
      obtain ⟨f, hthrow, rfl⟩ | ⟨_, _, _, _, hthrow, -⟩ := Action.ran_bind_iff.mp hrest
      · obtain ⟨rfl, -, rfl⟩ := Action.ran_throw_iff.mp hthrow
        refine Or.inl ⟨_, _, hy, fun reply' he => ?_, rfl, rfl⟩
        cases he
        exact hrefuses
      · exact nomatch (Action.ran_throw_iff.mp hthrow).2.1
    | false =>
      dsimp only at hrest
      rw [if_neg (by rw [hrefuses]; exact Bool.false_ne_true)] at hrest
      obtain ⟨z, hask, rfl⟩ := Action.ran_trial_iff.mp hrest
      obtain ⟨rfl, hw⟩ := ran_send_iff.mp hask
      exact Or.inr ⟨reply, s₁, z, hy, hrefuses, hw, rfl, rfl⟩

theorem settling_of_ran {url archive staging : String} {x : Except Fault String}
    (h : Ran answer (do
      unpack archive staging
      i.replace t url staging
      match ← ExceptT.lift (i.cached t) with
      | some binary => return binary
      | none =>
        throw (.toolUnavailable
          ("downloaded " ++ t.name ++ " does not report version " ++ t.version)) :
      Action String).run s asked x s') :
    Settling answer i t url archive staging s asked x s' := by
  rcases Action.ran_bind_iff.mp h with ⟨f, hunpack, rfl⟩ | ⟨_, _, u, rest, hunpack, hrest, rfl⟩
  · obtain ⟨rfl, o, hu, ho⟩ := ran_unpack hunpack
    exact .notUnpacked hu (mt ho.mpr nofun)
  · obtain ⟨rfl, o, hu, ho⟩ := ran_unpack hunpack
    rcases Action.ran_bind_iff.mp hrest with
      ⟨f, hreplace, rfl⟩ | ⟨replacing, _, v, last, hreplace, hlast, rfl⟩
    · exact .notReplaced hu (ho.mp rfl) hreplace
    · obtain ⟨looking, found, w, ending, hlook, hending, rfl⟩ :=
        Action.ran_lift_bind_iff.mp hlast
      cases found with
      | none =>
        obtain ⟨rfl, rfl, rfl⟩ := Action.ran_throw_iff.mp hending
        rw [List.append_nil, List.singleton_append]
        exact .replaced hu (ho.mp rfl) hreplace hlook (by simp)
      | some b =>
        obtain ⟨rfl, rfl, rfl⟩ := Action.ran_pure_iff.mp hending
        rw [List.append_nil, List.singleton_append]
        exact .replaced hu (ho.mp rfl) hreplace hlook (by simp)

theorem ran_discard {r : Request} (h : Ran answer (discard r) s asked () s') :
    asked = [r] ∧ ∃ y, answer r s = (y, s') := by
  obtain ⟨_, y, s₁, _, hask, hdone, rfl⟩ := Program.ran_bind_iff.mp h
  obtain ⟨rfl, hy⟩ := ran_send_iff.mp hask
  obtain ⟨rfl, -, rfl⟩ := ran_done_iff.mp hdone
  exact ⟨rfl, y, hy⟩

theorem trial_of_ran {url archive : String} {x : Except Fault String}
    (h : Ran answer (do
      download url archive
      i.installFrom t url archive : Action String).run s asked x s') :
    Trial answer i t url archive s asked x s' := by
  rcases Action.ran_bind_iff.mp h with ⟨f, hload, rfl⟩ | ⟨_, _, s₂, more, hload, hmore, rfl⟩
  · rcases ran_download hload with ⟨y, f', hf, hy, rfl, -⟩ | ⟨reply, s₁, y, hf, hy, hw, rfl, he⟩
    · exact .notFetched hf hy
    · cases y with
      | ok _ => exact nomatch he
      | error e =>
        cases he
        exact .notWritten hf hy hw
  · rcases ran_download hload with ⟨_, _, _, _, _, he⟩ | ⟨reply, s₁, y, hf, hy, hw, rfl, he⟩
    · exact nomatch he
    cases y with
    | error e => exact nomatch he
    | ok _ =>
      rcases ran_trial_bind hmore with ⟨e, hask, rfl⟩ | ⟨_, staging, s₃, last, hask, hlast, rfl⟩
      · obtain ⟨rfl, hd⟩ := ran_send_iff.mp hask
        exact .noStaging hf hy hw hd
      · obtain ⟨rfl, hd⟩ := ran_send_iff.mp hask
        obtain ⟨settling, s₄, ending, hsettle, hending, rfl⟩ := Action.ran_always_iff.mp hlast
        obtain ⟨rfl, z, hz⟩ := ran_discard hending
        exact .staged hf hy hw hd (settling_of_ran hsettle) hz

/-- **The course of an installation.** -/
theorem course_of_ran {x : Except Fault String}
    (h : Ran answer (i.ensure t p).run s asked x s') : Course answer i t p s asked x s' := by
  obtain ⟨looking, found, s₁, rest, hlook, hrest, rfl⟩ := Action.ran_lift_bind_iff.mp h
  cases found with
  | some b =>
    obtain ⟨rfl, rfl, rfl⟩ := Action.ran_pure_iff.mp hrest
    rw [List.append_nil]
    exact .found hlook
  | none =>
    rcases ran_trial_bind hrest with ⟨e, hask, rfl⟩ | ⟨_, _, s₂, more, hask, hmore, rfl⟩
    · obtain ⟨rfl, hm⟩ := ran_send_iff.mp hask
      exact .noRoot hlook hm
    · obtain ⟨rfl, hm⟩ := ran_send_iff.mp hask
      rcases ran_trial_bind hmore with ⟨e, hask, rfl⟩ | ⟨_, archive, s₃, last, hask, hlast, rfl⟩
      · obtain ⟨rfl, ha⟩ := ran_send_iff.mp hask
        exact .noArchive hlook hm ha
      · obtain ⟨rfl, ha⟩ := ran_send_iff.mp hask
        obtain ⟨trying, s₄, ending, htry, hending, rfl⟩ := Action.ran_always_iff.mp hlast
        obtain ⟨rfl, z, hz⟩ := ran_discard hending
        exact .tried hlook hm ha (trial_of_ran htry) hz

end Installer
end LintGate
