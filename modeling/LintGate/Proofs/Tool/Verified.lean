import LintGate.Proofs.Tool.Clearing
import LintGate.Proofs.Tool.Depot

/-!
# The executable that is handed out

An installation hands out an executable only after it reported the pinned version.  If it did so
before, this is all that is asked.  If it had to be installed, what the server sent for the release
was written into an archive, this archive was unpacked in an empty directory, and the release that
came out of it stands whole in its place, with nothing of an earlier one in it.

## Main definitions

* `Installer.Unpacked` — a release was downloaded, and unpacked from what was downloaded.
* `Installer.Replaced` — a release took its place.
* `Installer.Covers` — what a path leads to in the course of a run.
* `Installer.HandsOut` — what a run was like that handed out an executable.

## Main results

* `Installer.handsOut_of_ran` — each run that hands out an executable is one of these.
* `Installer.ran_of_verified` — nothing is changed if the executable is verified.
* `Installer.ensure_verified` — **what is handed out is verified, and nothing is done for it a
  second time.**
-/

namespace LintGate
namespace Installer

open Program FileSystem

variable {σ : Type} {answer : (r : Request) → σ → r.Answer × σ} {files : σ → FileSystem}
  {i : Installer} {t : ToolConfig} {p : Platform} {s s' u v : σ} {asked : List Request}
  {url archive staging path b : String} {x : Except Fault String} {l : Location}

/-! ### What comes of a run -/

/-- A release was downloaded and unpacked.  The server did not refuse.  What it sent is what is in
the archive when this is unpacked, and the directory that it is unpacked in is empty till then. -/
inductive Unpacked (answer : (r : Request) → σ → r.Answer × σ) (files : σ → FileSystem)
    (i : Installer) (url archive staging : String) (reply : Reply) (s : σ) : σ → Prop
  | intro {s₁ s₂ w u : σ} {o : Except OsFault Output}
      (hf : answer (.fetch url) s = (.ok reply, s₁)) (hy : refuses reply = false)
      (hw : answer (.writeFile archive reply.body) s₁ = (.ok (), s₂))
      (hd : answer (.tempDir i.root "extract-") s₂ = (.ok staging, w))
      (harchive : (files w).read archive = .ok reply.body)
      (hempty : (files w).node staging = .ok .empty)
      (hu : answer (unpacking archive staging) w = (o, u)) (ho : Succeeds o) :
      Unpacked answer files i url archive staging reply s u

/-- A release that was unpacked took its place, and nothing else was asked for. -/
structure Replaced (answer : (r : Request) → σ → r.Answer × σ) (files : σ → FileSystem)
    (i : Installer) (t : ToolConfig) (staging : String) (u : σ) (asked : List Request) (v : σ) :
    Prop where
  asks : asked ⊆ [.isThere (t.releaseDir i.root), .removeTree (t.releaseDir i.root),
    .rename (t.releaseDir staging) (t.releaseDir i.root)]
  afterwards_eq : afterwards answer u asked = v
  replaces : (files u).Replaces (t.releaseDir staging) (t.releaseDir i.root) (files v)

/-- A location is at or below what a path leads to at some moment of a run. -/
def Covers (answer : (r : Request) → σ → r.Answer × σ) (files : σ → FileSystem) (s : σ)
    (asked : List Request) (path : String) (l : Location) : Prop :=
  ∃ before r, before <+: asked ∧
    (files (afterwards answer s before)).resolve false path = .ok r ∧ r <+: l

/-- What a run was like that handed out an executable: it was found, or the release was downloaded,
unpacked, and put in its place, where its executable is verified, and then nothing was changed but
what was made for the time being. -/
inductive HandsOut (answer : (r : Request) → σ → r.Answer × σ) (files : σ → FileSystem)
    (i : Installer) (t : ToolConfig) (p : Platform) (s : σ) : List Request → σ → Prop
  | found {s' : σ} (hv : Verified answer s (t.binaryPath i.root) t.version)
      (hsame : files s' = files s) :
      HandsOut answer files i t p s (questions (t.binaryPath i.root)) s'
  | installed {s₁ s₂ s₃ u v s' : σ} {looking replacing asked : List Request}
      {archive staging : String} {reply : Reply}
      (hc : Ran answer (i.cached t) s looking none s₁)
      (hm : answer (.makeDirs i.root) s₁ = (.ok (), s₂))
      (ha : answer (.tempFile i.root "download-" ".tar.xz") s₂ = (.ok archive, s₃))
      (hu : Unpacked answer files i (t.releaseArchive p) archive staging reply s₃ u)
      (hr : Replaced answer files i t staging u replacing v)
      (hv : Verified answer v (t.binaryPath i.root) t.version)
      (hasked : asked = looking ++ (i.preparing ++
        (i.fetching (t.releaseArchive p) archive reply.body ++ (unpacking archive staging ::
          (replacing ++ (questions (t.binaryPath i.root) ++
            [.removeTree staging, .removeFile archive]))))))
      (hkeeps : (files v).Keeps (files s') fun l =>
        ∀ path ∈ temporaries answer s asked, ¬ Covers answer files s asked path l)
      (hback : (files s').Keeps (files v) fun _ => True) :
      HandsOut answer files i t p s asked s'

theorem Covers.append {first : List Request} (hs : afterwards answer s first = s')
    (h : Covers answer files s' asked path l) (rest : List Request) :
    Covers answer files s (first ++ (asked ++ rest)) path l := by
  obtain ⟨before, r, hbefore, hr, hbelow⟩ := h
  refine ⟨first ++ before, r, ?_, ?_, hbelow⟩
  · exact (List.prefix_append_right_inj first).mpr (hbefore.trans (List.prefix_append _ _))
  · rw [afterwards_append, hs, hr]

/-! ### Step after step -/

/-- A look that finds an executable finds the one of the release, verified. -/
theorem cached_eq_some (hk : KeepsFiles answer files) (hversion : VersionKeepsFiles answer files)
    (h : Ran answer (i.cached t) s asked (some b) s') :
    b = t.binaryPath i.root ∧ asked = questions b ∧ Verified answer s b t.version ∧
      files s' = files s := by
  rcases ran_cached h with ⟨hb, hv, rfl⟩ | ⟨hb, -⟩
  · cases hb
    exact ⟨rfl, rfl, hv, files_of_cached hk hversion h⟩
  · exact nomatch hb

/-- If there was a directory to unpack in, the release took its place. -/
theorem Settling.installed (hk : KeepsFiles answer files)
    (hversion : VersionKeepsFiles answer files)
    (h : Settling answer i t url archive staging s asked (.ok b) s') :
    b = t.binaryPath i.root ∧ ∃ o u replacing v,
      asked = unpacking archive staging :: (replacing ++ questions b) ∧
      answer (unpacking archive staging) s = (o, u) ∧ Succeeds o ∧
      Replaced answer files i t staging u replacing v ∧ Verified answer v b t.version ∧
      files s' = files v := by
  cases h with
  | replaced hu ho hr hc hx =>
    rw [(hx b).mp rfl] at hc
    obtain ⟨rfl, rfl, hv, hsame⟩ := cached_eq_some hk hversion hc
    refine ⟨rfl, _, _, _, _, rfl, hu, ho, ⟨fun r hr' => ?_, hr.afterwards_eq,
      replaces_of_ran hk hr⟩, hv, hsame⟩
    simpa using mem_of_ran_replace hr r hr'

/-- If there was an archive, what the server sent was unpacked from it.  The directory that it was
unpacked in was removed, and else nothing. -/
theorem Trial.installed (hk : KeepsFiles answer files) (hversion : VersionKeepsFiles answer files)
    {fs : FileSystem} (hadds : fs.Adds archive l (files s))
    (h : Trial answer i t url archive s asked (.ok b) s') :
    b = t.binaryPath i.root ∧ ∃ reply staging u replacing v,
      asked = i.fetching url archive reply.body ++ (unpacking archive staging ::
        (replacing ++ (questions b ++ [.removeTree staging]))) ∧
      staging ∈ temporaries answer s asked ∧
      Unpacked answer files i url archive staging reply s u ∧
      Replaced answer files i t staging u replacing v ∧ Verified answer v b t.version ∧
      ((files v).Keeps (files s') fun l => ¬ Covers answer files s asked staging l) ∧
      (files s').Keeps (files v) fun _ => True := by
  cases h with
  | @staged s₁ s₂ w s₄ _ reply staging settling _ z hf hy hw hd hs hr =>
    obtain ⟨rfl, o, u, replacing, v, rfl, hu, ho, hreplaced, hv, hsame⟩ :=
      hs.installed hk hversion
    obtain ⟨c, hadds'⟩ := hk.adds_tempDir (by decide) (by decide) hd
    obtain ⟨hkeeps, hback, -⟩ := hk.keeps_removeTree hadds'.name hr
    -- the directory to unpack in is made beside the archive, so what was written is in it still
    have harchive : (files w).read archive = .ok reply.body := by
      rw [← hk.files_of_look id hf] at hadds
      exact hadds'.keeps.read (hk.read_of_writeFile hadds hw)
    have hempty := hk.node_tempDir (by decide) (by decide) hd
    have hs₄ : afterwards answer s (i.fetching url archive reply.body ++
        unpacking archive staging :: (replacing ++ questions (t.binaryPath i.root))) = s₄ := by
      rw [afterwards_append, afterwards_fetching hf hw hd, hs.afterwards_eq]
    refine ⟨rfl, reply, staging, u, replacing, v, ?_, ?_,
      .intro hf hy hw hd harchive hempty hu ho, hreplaced, hv, ?_, hsame ▸ hback⟩
    · simp
    · rw [temporaries_staged hf hw hd hs]
      exact List.mem_singleton_self staging
    · rw [← hsame]
      refine hkeeps.mono fun l hl r hresolve hbelow => hl ⟨_, r, ?_, hs₄ ▸ hresolve, hbelow⟩
      exact (List.prefix_append_right_inj _).mpr (List.prefix_append _ _)

/-- **Each run that hands out an executable** found it or installed it. -/
theorem handsOut_of_ran (hk : KeepsFiles answer files) (hversion : VersionKeepsFiles answer files)
    (h : Ran answer (i.ensure t p).run s asked (.ok b) s') :
    b = t.binaryPath i.root ∧ HandsOut answer files i t p s asked s' := by
  cases course_of_ran h with
  | found hc =>
    obtain ⟨rfl, rfl, hv, hsame⟩ := cached_eq_some hk hversion hc
    exact ⟨rfl, .found hv hsame⟩
  | @tried s₁ s₂ s₃ s₄ _ looking trying archive _ z hc hm hf ht hr =>
    obtain ⟨c, hadds⟩ := hk.adds_tempFile (by decide) (by decide) hf
    obtain ⟨rfl, reply, staging, u, replacing, v, hasked, hstaging, hunpacked, hreplaced, hv,
      hkeeps, hback⟩ := ht.installed hk hversion hadds
    obtain ⟨hkeeps', hback', -⟩ := hk.keeps_removeFile hadds.name hr
    have hs₃ := afterwards_looking_preparing hc hm hf
    have hs₄ : afterwards answer s (looking ++ i.preparing ++ trying) = s₄ := by
      rw [afterwards_append, hs₃, ht.afterwards_eq]
    have hmade := temporaries_tried hc hm hf trying
    rw [← List.append_assoc] at hmade ⊢
    refine ⟨rfl, .installed hc hm hf hunpacked hreplaced hv ?_ ?_ (hback'.trans hback)⟩
    · rw [hasked]
      simp
    -- the directory is removed first, then the archive: both are covered by what was made
    refine (hkeeps.mono fun l hl hcovers => ?_).trans
      (hkeeps'.mono fun l hl r hresolve hbelow => ?_)
    · exact hl staging (hmade ▸ List.mem_cons_of_mem _ hstaging) (hcovers.append hs₃ _)
    · refine hl archive (hmade ▸ List.mem_cons_self) ⟨_, r, ?_, hs₄ ▸ hresolve, hbelow⟩
      exact (List.prefix_append_right_inj _).mpr (List.prefix_append _ _)

/-! ### A second time -/

/-- **Nothing is changed if the executable is verified**: it is looked at and handed out. -/
theorem ran_of_verified (hk : KeepsFiles answer files) (hversion : VersionKeepsFiles answer files)
    (hv : Verified answer s (t.binaryPath i.root) t.version)
    (h : Ran answer (i.ensure t p).run s asked x s') :
    x = .ok (t.binaryPath i.root) ∧ asked = questions (t.binaryPath i.root) ∧
      files s' = files s := by
  -- all other courses begin with a look that finds nothing
  have hfound {looking : List Request} {s₁ : σ}
      (hc : Ran answer (i.cached t) s looking none s₁) : False := by
    rcases ran_cached hc with ⟨hb, -⟩ | ⟨-, hnot, -⟩
    · exact nomatch hb
    · exact hnot hv
  cases course_of_ran h with
  | found hc =>
    obtain ⟨rfl, rfl, -, hsame⟩ := cached_eq_some hk hversion hc
    exact ⟨rfl, rfl, hsame⟩
  | noRoot hc hm => exact (hfound hc).elim
  | noArchive hc hm hf => exact (hfound hc).elim
  | tried hc hm hf ht hr => exact (hfound hc).elim

/-- What was handed out is still there when the run returns, if the path to it does not go through
anything that was made for the time being. -/
theorem HandsOut.isFile (hk : KeepsFiles answer files)
    (h : HandsOut answer files i t p s asked s')
    (hnames : ∀ path ∈ temporaries answer s asked, EndsInName path)
    (havoids : (files s').Avoids (t.binaryPath i.root) (madeUp answer s asked)) :
    (files s').isFile (t.binaryPath i.root) = true := by
  cases h with
  | found hv hsame => rw [hsame, ← hk.isFile, hv.isFile]
  | installed hc hm ha hu hr hv hasked hkeeps hback =>
    have hfile := hv.isFile
    rw [hk.isFile] at hfile
    refine isFile_of_avoids (hkeeps.mono fun l hl path hpath hcovers => ?_) havoids hfile
    obtain ⟨_, r, -, hr, hbelow⟩ := hcovers
    exact hl _ (hbelow.subset ((hnames path hpath).mem hr)) (List.mem_map_of_mem hpath)

/-- **What is handed out is verified, and nothing is done for it a second time.**

* If a run hands out an executable, this is the one of the pinned release.  It was found, or what
  the server sent was unpacked, the release that came out of it was put in its place whole, and it
  reported the version then.
* If it was verified before, it is looked at and handed out, and no file is changed.
* What was handed out is still a file, if the path to it does not go through anything that was
  made for the time being.  If it reports the version still, the next run hands it out again, and
  no file is changed.
* Whatever the run comes to, nothing that was made for the time being is left if no removal of it
  failed. -/
theorem ensure_verified (hk : KeepsFiles answer files) (hversion : VersionKeepsFiles answer files)
    (h : Ran answer (i.ensure t p).run s asked x s') :
    (∀ b, x = .ok b → b = t.binaryPath i.root ∧ HandsOut answer files i t p s asked s') ∧
      (Verified answer s (t.binaryPath i.root) t.version → x = .ok (t.binaryPath i.root) ∧
        asked = questions (t.binaryPath i.root) ∧ files s' = files s) ∧
      (∀ b, x = .ok b →
        ((files s').Avoids b (madeUp answer s asked) → (files s').isFile b = true) ∧
        (Verified answer s' b t.version →
          ∀ p asked' y s'', Ran answer (i.ensure t p).run s' asked' y s'' →
            y = .ok b ∧ asked' = questions b ∧ files s'' = files s')) ∧
      ∀ path ∈ temporaries answer s asked,
        (∀ e ∈ exchanges answer s asked, ¬ e.FailsToRemove path) → (files s').Absent path := by
  refine ⟨?_, fun hv => ran_of_verified hk hversion hv h, ?_, ?_⟩
  · rintro b rfl
    exact handsOut_of_ran hk hversion h
  · rintro b rfl
    obtain ⟨rfl, hout⟩ := handsOut_of_ran hk hversion h
    refine ⟨fun havoids => hout.isFile hk (fun path hpath => ?_) havoids, fun hv _ _ _ _ hagain =>
      ran_of_verified hk hversion hv hagain⟩
    exact (ensure_clears hk h hpath).1
  · exact fun path hpath => (ensure_clears hk h hpath).2

/-- The release that is downloaded takes the place of an older one, and its executable is handed
out: it is what the server sent.  The second run only looks at it. -/
theorem ensure_verified_outdated :
    let ensure := ((⟨"/gate"⟩ : Installer).ensure {} .linuxX86).run
    let d := Depot.ofVersion "0.7.2"
    let after := (ensure.run d.answer Depot.outdated).2
    (ensure.run d.answer Depot.outdated).1 = .ok "/gate/shellcheck-v0.7.2/shellcheck" ∧
      HandsOut d.answer Machine.files ⟨"/gate"⟩ {} .linuxX86 Depot.outdated
        (ensure.history d.answer Depot.outdated) after ∧
      Depot.outdated.files.read "/gate/shellcheck-v0.7.2/shellcheck" =
        .ok (Depot.printed "0.7.1") ∧
      after.files.read "/gate/shellcheck-v0.7.2/shellcheck" = .ok d.body ∧
      ensure.history d.answer after = questions "/gate/shellcheck-v0.7.2/shellcheck" := by
  intro ensure d after
  have hout {ε α : Type} {x : Except ε α} {a : α} (h : x.toOption = some a) : x = .ok a := by
    cases x with
    | error e => exact nomatch h
    | ok b' => exact congrArg Except.ok (Option.some.inj h)
  have hok : (ensure.run d.answer Depot.outdated).1 = .ok "/gate/shellcheck-v0.7.2/shellcheck" :=
    hout (by decide +kernel)
  have hverified : Verified d.answer after "/gate/shellcheck-v0.7.2/shellcheck" "0.7.2" := by
    decide +kernel
  obtain ⟨hhands, -, hagain, -⟩ :=
    ensure_verified d.keepsFiles d.versionKeepsFiles (ran_run ensure Depot.outdated)
  exact ⟨hok, (hhands _ hok).2, hout (by decide +kernel), hout (by decide +kernel),
    ((hagain _ hok).2 hverified _ _ _ _ (ran_run ensure after)).2.1⟩

end Installer
end LintGate
