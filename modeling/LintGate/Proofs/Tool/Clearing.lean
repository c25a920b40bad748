import LintGate.Proofs.Tool.Replacing

/-!
# What was made for the time being is removed

An installation makes an archive and a directory under new names, and asks for each to be removed
at the end, at whichever step it failed.  If no removal fails, nothing is found at the paths of
the two when it returns.

## Main definitions

* `Exchange.FailsToRemove` — a removal that failed.
* `FileSystem.Absent` — nothing is found at a path.

## Main results

* `Installer.temporaries_staged`, `Installer.temporaries_tried` — what is made for the time being.
* `Installer.Trial.clears`, `Installer.ensure_clears` — **nothing that was made for the time being
  is left.**
-/

namespace LintGate

open Program

/-- A removal of what a path leads to that failed. -/
def Exchange.FailsToRemove (path : String) : Exchange → Prop
  | ⟨.removeFile path', .error _⟩ => path' = path
  | ⟨.removeTree path', .error _⟩ => path' = path
  | _ => False

namespace FileSystem

variable {fs fs' : FileSystem} {path : String}

/-- Nothing is found at a path. -/
def Absent (fs : FileSystem) (path : String) : Prop := ∀ l, fs.resolve false path ≠ .ok l

/-- Nothing is found at a path where less is than before, if nothing was found before. -/
theorem Absent.of_keeps (h : fs.Absent path) (hk : fs'.Keeps fs fun _ => True) : fs'.Absent path :=
  fun l hl => h l (hk.resolve hl)

end FileSystem

namespace Installer

open FileSystem

variable {σ : Type} {answer : (r : Request) → σ → r.Answer × σ} {files : σ → FileSystem}
  {i : Installer} {t : ToolConfig} {p : Platform} {s s' : σ} {asked : List Request}
  {url archive staging path : String} {x : Except Fault String}

/-- A look at the executable makes nothing under a new name. -/
theorem temporaries_of_cached {found : Option String}
    (h : Ran answer (i.cached t) s asked found s') : temporaries answer s asked = [] := by
  refine temporaries_eq_nil fun r hr => ?_
  rcases ran_cached h with ⟨-, -, rfl⟩ | ⟨-, -, hsub⟩
  · rw [questions, List.mem_cons, List.mem_singleton] at hr
    rcases hr with rfl | rfl <;> exact id
  · have hmem := hsub hr
    rw [questions, List.mem_cons, List.mem_singleton] at hmem
    rcases hmem with rfl | rfl <;> exact id

theorem temporaries_of_replace {x : Except Fault Unit}
    (h : Ran answer (i.replace t url staging).run s asked x s') :
    temporaries answer s asked = [] := by
  refine temporaries_eq_nil fun r hr => ?_
  rcases mem_of_ran_replace h r hr with rfl | rfl | rfl <;> exact id

theorem temporaries_fetching {content : Bytes} {s₁ s₂ s₃ : σ} {y : Except FetchFault Reply}
    {z : Except OsFault Unit} (hf : answer (.fetch url) s = (y, s₁))
    (hw : answer (.writeFile archive content) s₁ = (z, s₂))
    (hd : answer (.tempDir i.root "extract-") s₂ = (.ok staging, s₃)) :
    temporaries answer s (i.fetching url archive content) = [staging] := by
  simp only [temporaries, exchanges, hf, hw, hd]
  rfl

theorem temporaries_preparing {s₁ s₂ : σ} {y : Except OsFault Unit}
    (hm : answer (.makeDirs i.root) s = (y, s₁))
    (hf : answer (.tempFile i.root "download-" ".tar.xz") s₁ = (.ok archive, s₂)) :
    temporaries answer s i.preparing = [archive] := by
  simp only [temporaries, exchanges, hm, hf]
  rfl

/-- Nothing is made under a new name once there is a directory to unpack in. -/
theorem Settling.temporaries_eq_nil (h : Settling answer i t url archive staging s asked x s') :
    temporaries answer s asked = [] := by
  have hunpacking {o : Except OsFault Output} {u : σ} {rest : List Request}
      (hu : answer (unpacking archive staging) s = (o, u)) :
      temporaries answer s (unpacking archive staging :: rest) = temporaries answer u rest := by
    rw [← List.singleton_append, temporaries_append]
    simp [temporaries, exchanges, afterwards, hu, Exchange.temporary?]
  cases h with
  | notUnpacked hu ho => rw [hunpacking hu, temporaries, exchanges, List.filterMap_nil]
  | notReplaced hu ho hr => rw [hunpacking hu, temporaries_of_replace hr]
  | replaced hu ho hr hc hx =>
    rw [hunpacking hu, temporaries_append, temporaries_of_replace hr, hr.afterwards_eq,
      temporaries_of_cached hc, List.append_nil]

/-- The directory to unpack in is all that is made for the time being once there is an archive. -/
theorem temporaries_staged {content : Bytes} {s₁ s₂ s₃ : σ} {y : Except FetchFault Reply}
    {z : Except OsFault Unit} (hf : answer (.fetch url) s = (y, s₁))
    (hw : answer (.writeFile archive content) s₁ = (z, s₂))
    (hd : answer (.tempDir i.root "extract-") s₂ = (.ok staging, s₃))
    (hs : Settling answer i t url archive staging s₃ asked x s') :
    temporaries answer s (i.fetching url archive content ++ (asked ++ [.removeTree staging])) =
      [staging] := by
  rw [temporaries_append, temporaries_fetching hf hw hd, afterwards_fetching hf hw hd,
    temporaries_append, hs.temporaries_eq_nil]
  rfl

/-- What is made for the time being in a run: the archive, and what is made of it. -/
theorem temporaries_tried {s₁ s₂ s₃ : σ} {looking : List Request} {y : Except OsFault Unit}
    (hc : Ran answer (i.cached t) s looking none s₁) (hm : answer (.makeDirs i.root) s₁ = (y, s₂))
    (hf : answer (.tempFile i.root "download-" ".tar.xz") s₂ = (.ok archive, s₃))
    (trying : List Request) :
    temporaries answer s (looking ++ (i.preparing ++ (trying ++ [.removeFile archive]))) =
      archive :: temporaries answer s₃ trying := by
  rw [temporaries_append, temporaries_of_cached hc, hc.afterwards_eq, temporaries_append,
    temporaries_preparing hm hf, afterwards_preparing hm hf, temporaries_append]
  simp [temporaries, exchanges, Exchange.temporary?]

/-- The state in which there is an archive. -/
theorem afterwards_looking_preparing {s₁ s₂ s₃ : σ} {looking : List Request}
    {y : Except OsFault Unit} {z : Except OsFault String}
    (hc : Ran answer (i.cached t) s looking none s₁) (hm : answer (.makeDirs i.root) s₁ = (y, s₂))
    (hf : answer (.tempFile i.root "download-" ".tar.xz") s₂ = (z, s₃)) :
    afterwards answer s (looking ++ i.preparing) = s₃ := by
  rw [afterwards_append, hc.afterwards_eq, afterwards_preparing hm hf]

/-- **The directory to unpack in is removed**, at whichever step something failed. -/
theorem Trial.clears (hk : KeepsFiles answer files)
    (h : Trial answer i t url archive s asked x s') (hpath : path ∈ temporaries answer s asked) :
    EndsInName path ∧
      ((∀ e ∈ exchanges answer s asked, ¬ e.FailsToRemove path) → (files s').Absent path) := by
  cases h with
  | notFetched hf hy =>
    simp [temporaries, exchanges, Exchange.temporary?] at hpath
  | notWritten hf hy hw =>
    simp [temporaries, exchanges, Exchange.temporary?] at hpath
  | noStaging hf hy hw hd =>
    simp [temporaries, exchanges, hf, hw, hd, Exchange.temporary?] at hpath
  | @staged s₁ s₂ s₃ s₄ _ reply staging settling _ z hf hy hw hd hs hr =>
    obtain ⟨c, hadds⟩ := hk.adds_tempDir (by decide) (by decide) hd
    rw [temporaries_staged hf hw hd hs] at hpath
    obtain rfl := List.mem_singleton.mp hpath
    refine ⟨hadds.name, fun hremoved => (hk.keeps_removeTree hadds.name hr).2.2 ?_⟩
    rw [← List.append_assoc] at hremoved
    have hdone := hremoved _ (mem_exchanges_concat
      (by rw [afterwards_append, afterwards_fetching hf hw hd, hs.afterwards_eq]) hr)
    cases z with
    | ok _ => rfl
    | error e => exact absurd rfl hdone

/-- **Nothing that was made for the time being is left** when an installation returns, whatever
it comes to, unless it could not be removed. -/
theorem ensure_clears (hk : KeepsFiles answer files)
    (h : Ran answer (i.ensure t p).run s asked x s') (hpath : path ∈ temporaries answer s asked) :
    EndsInName path ∧
      ((∀ e ∈ exchanges answer s asked, ¬ e.FailsToRemove path) → (files s').Absent path) := by
  cases course_of_ran h with
  | found hc =>
    rw [temporaries_of_cached hc] at hpath
    exact absurd hpath List.not_mem_nil
  | noRoot hc hm =>
    rw [temporaries_append, temporaries_of_cached hc] at hpath
    simp [temporaries, exchanges, Exchange.temporary?] at hpath
  | noArchive hc hm hf =>
    rw [temporaries_append, temporaries_of_cached hc, hc.afterwards_eq] at hpath
    simp [temporaries, exchanges, hm, hf, Exchange.temporary?] at hpath
  | @tried s₁ s₂ s₃ s₄ _ looking trying archive _ z hc hm hf ht hr =>
    obtain ⟨c, hadds⟩ := hk.adds_tempFile (by decide) (by decide) hf
    have hs₃ := afterwards_looking_preparing hc hm hf
    obtain ⟨-, hback, habsent⟩ := hk.keeps_removeFile hadds.name hr
    rw [temporaries_tried hc hm hf] at hpath
    rw [← List.append_assoc]
    rcases List.mem_cons.mp hpath with rfl | htrying
    · refine ⟨hadds.name, fun hremoved => habsent ?_⟩
      rw [← List.append_assoc] at hremoved
      have hdone := hremoved _ (mem_exchanges_concat
        (by rw [afterwards_append, hs₃, ht.afterwards_eq]) hr)
      cases z with
      | ok _ => rfl
      | error e => exact absurd rfl hdone
    · obtain ⟨hname, hgone⟩ := ht.clears hk htrying
      refine ⟨hname, fun hremoved => (hgone fun e he => hremoved e ?_).of_keeps hback⟩
      rw [exchanges_append, hs₃, exchanges_append]
      simp [he]

end Installer
end LintGate
