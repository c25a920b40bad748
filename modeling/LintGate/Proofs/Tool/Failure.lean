import LintGate.Proofs.Tool.Clearing
import LintGate.Proofs.Tool.Depot

/-!
# What a failed installation leaves

Up to the moment when an archive was unpacked, an installation changes nothing but what it made
itself.  Then the release that was in the place of the new one makes room, before it is known
whether there is a new one and which version it reports.  So a run that fails later leaves
everything but what stood in the place of the release.

## Main definitions

* `Installer.Exposed`, `Installer.Strays`, `Installer.AtRisk` — what may be lost, and how.

## Main results

* `Installer.Settling.keeps`, `Installer.Trial.keeps` — what the steps leave as it is.
* `Installer.ensure_keeps` — **what a run leaves as it is, also if it fails.**
-/

namespace LintGate

open Program FileSystem

namespace Installer

variable {σ : Type} {answer : (r : Request) → σ → r.Answer × σ} {files : σ → FileSystem}
  {i : Installer} {t : ToolConfig} {p : Platform} {s s' u : σ} {asked : List Request}
  {url archive staging : String} {x : Except Fault String}

/-! ### What may be lost -/

/-- The locations that an installation may change once an archive was unpacked: what the
directory of the release is in the place of releases, or where the archive was unpacked. -/
def Exposed (files : σ → FileSystem) (i : Installer) (t : ToolConfig) (staging : String) (u : σ)
    (l : Location) : Prop :=
  ∃ k, ((files u).Names (t.releaseDir i.root) k ∨ (files u).Names (t.releaseDir staging) k) ∧
    k <+: l

/-- A path comes to name another place in the course of a run. -/
def Strays (answer : (r : Request) → σ → r.Answer × σ) (files : σ → FileSystem) (s : σ)
    (asked : List Request) (path : String) : Prop :=
  ∃ before before' l l', before <+: asked ∧ before' <+: asked ∧
    (files (afterwards answer s before)).place path = .ok l ∧
    (files (afterwards answer s before')).place path = .ok l' ∧ l ≠ l'

/-- What may be lost in a run: what stood in the place of the release when an archive was
unpacked, and what has the name of something that was made for the time being, if the path of the
latter came to name another place. -/
inductive AtRisk (answer : (r : Request) → σ → r.Answer × σ) (files : σ → FileSystem)
    (i : Installer) (t : ToolConfig) (s : σ) (asked : List Request) (l : Location) : Prop
  | exposed {staging : String} {u : σ} (hu : UnpackedAt answer s asked staging u)
      (h : Exposed files i t staging u l)
  | strayed {path : String} (hpath : path ∈ temporaries answer s asked)
      (hl : lastName path ∈ l) (h : Strays answer files s asked path)

/-- The directory of a release ends in its name, wherever it is. -/
theorem endsInName_releaseDir (h : '/' ∉ t.releaseName.toList) (root : String) :
    EndsInName (t.releaseDir root) ∧ lastName (t.releaseDir root) = t.releaseName.toList := by
  have hv : 'v' ∈ t.releaseName.toList := by simp [ToolConfig.releaseName]
  have hne : t.releaseName.toList ≠ [] := List.ne_nil_of_mem hv
  have hlast : lastName (t.releaseDir root) = t.releaseName.toList := by
    rw [ToolConfig.releaseDir, ← String.ofList_toList (s := t.releaseName),
      lastName_join root hne h, String.toList_ofList]
  refine ⟨⟨?_, ?_⟩, hlast⟩
  · rw [ToolConfig.releaseDir, ← String.ofList_toList (s := t.releaseName)]
    exact endsInSlash_join root hne h
  · rw [hlast]
    constructor <;> intro hdots <;> simp [hdots] at hv

/-- Nothing is at risk but what has the name of the release, or one that was made up, on the way to
it. -/
theorem AtRisk.mem {l : Location} (h : AtRisk answer files i t s asked l)
    (hname : '/' ∉ t.releaseName.toList) :
    t.releaseName.toList ∈ l ∨ ∃ n ∈ madeUp answer s asked, n ∈ l := by
  cases h with
  | exposed hu hexposed =>
    obtain ⟨k, hnames, hbelow⟩ := hexposed
    have hmem {fs : FileSystem} {root : String} (hk : fs.Names (t.releaseDir root) k) :
        t.releaseName.toList ∈ l := by
      obtain ⟨hends, hlast⟩ := endsInName_releaseDir hname root
      exact hbelow.subset (hlast ▸ hk.mem hends)
    exact Or.inl (hnames.elim hmem hmem)
  | strayed hpath hl _ => exact Or.inr ⟨_, List.mem_map_of_mem hpath, hl⟩

/-- What is at risk in a part of a run is at risk in the whole. -/
theorem AtRisk.append {first : List Request} {l : Location}
    (hs : afterwards answer s first = s') (h : AtRisk answer files i t s' asked l)
    (rest : List Request) : AtRisk answer files i t s (first ++ (asked ++ rest)) l := by
  have hpart {before : List Request} (hb : before <+: asked) :
      first ++ before <+: first ++ (asked ++ rest) :=
    (List.prefix_append_right_inj first).mpr (hb.trans (List.prefix_append _ _))
  cases h with
  | exposed hu hexposed => exact .exposed (hu.append hs rest) hexposed
  | strayed hpath hl hstrays =>
    refine .strayed ?_ hl ?_
    · rw [temporaries_append, hs, temporaries_append]
      exact List.mem_append_right _ (List.mem_append_left _ hpath)
    · obtain ⟨before, before', k, k', hb, hb', hk, hk', hne⟩ := hstrays
      refine ⟨first ++ before, first ++ before', k, k', hpart hb, hpart hb', ?_, ?_, hne⟩
      · rw [afterwards_append, hs, hk]
      · rw [afterwards_append, hs, hk']

/-- **What was made for the time being is removed and nothing else**, unless its path strays. -/
theorem not_prefix_or_strays (asked : List Request) {v : σ} {path : String}
    {before before' : List Request} {m l : Location} (hadds : (files u).Adds path m (files v))
    (hl : ((files u).root.get? l).isSome) (hbefore : before <+: asked)
    (hu : afterwards answer s before = u) (hbefore' : before' <+: asked)
    (hs' : afterwards answer s before' = s') :
    (∀ r, (files s').resolve false path = .ok r → ¬ r <+: l) ∨
      lastName path ∈ l ∧ Strays answer files s asked path := by
  by_cases hr : ∀ r, (files s').resolve false path = .ok r → ¬ r <+: l
  · exact Or.inl hr
  · push Not at hr
    obtain ⟨r, hr, hbelow⟩ := hr
    refine Or.inr ⟨hbelow.subset (hadds.name.mem hr), before, before', m, r, hbefore, hbefore',
      hu ▸ hadds.place, hs' ▸ place_of_resolve hr hadds.name.slash hadds.name.down, ?_⟩
    rintro rfl
    exact hadds.not_prefix hl hbelow

/-! ### Step after step -/

/-- **What the steps after unpacking leave as it is.** -/
theorem Settling.keeps (hk : KeepsFiles answer files) (hversion : VersionKeepsFiles answer files)
    (hunpack : UnpacksBelow answer files) {d : Location}
    (hd : (files s).resolve true staging = .ok d)
    (h : Settling answer i t url archive staging s asked x s') {l : Location} {a : Node}
    (hl : ¬ d <+: l) (ha : (files s).root.bare? l = some a) :
    (files s').root.bare? l = some a ∨ AtRisk answer files i t s asked l := by
  have hunpacked {o : Except OsFault Output} {u : σ}
      (hu : answer (unpacking archive staging) s = (o, u)) :
      (files u).root.bare? l = some a := by
    have hkeeps := hunpack archive staging d s hd
    rw [hu] at hkeeps
    exact hkeeps.root l a hl ha
  have hreplaced {o : Except OsFault Output} {u v : σ} {replacing rest : List Request}
      {y : Except Fault Unit} (hu : answer (unpacking archive staging) s = (o, u))
      (ho : Succeeds o) (hr : Ran answer (i.replace t url staging).run u replacing y v) :
      (files v).root.bare? l = some a ∨
        AtRisk answer files i t s (unpacking archive staging :: rest) l := by
    by_cases hexposed : Exposed files i t staging u l
    · exact Or.inr (.exposed ⟨[], archive, rest, o, rfl, hu, ho⟩ hexposed)
    · refine Or.inl ((replace_keeps hk hr).root l a (fun k hnames hbelow => ?_) (hunpacked hu))
      exact hexposed ⟨k, hnames, hbelow⟩
  cases h with
  | notUnpacked hu ho => exact Or.inl (hunpacked hu)
  | notReplaced hu ho hr => exact hreplaced hu ho hr
  | replaced hu ho hr hc hx =>
    rw [files_of_cached hk hversion hc]
    exact hreplaced hu ho hr

/-- **What the steps after the download leave as it is.** -/
theorem Trial.keeps (hk : KeepsFiles answer files) (hversion : VersionKeepsFiles answer files)
    (hunpack : UnpacksBelow answer files) {d : Location}
    (hd : (files s).resolve true archive = .ok d)
    (h : Trial answer i t url archive s asked x s') {l : Location} {a : Node}
    (hl : l ≠ d) (ha : (files s).root.bare? l = some a) :
    (files s').root.bare? l = some a ∨ AtRisk answer files i t s asked l := by
  have hfetched {s₁ : σ} {y : Except FetchFault Reply} (hf : answer (.fetch url) s = (y, s₁)) :
      files s₁ = files s := hk.files_of_look id hf
  have hwritten {s₁ s₂ : σ} {y : Except FetchFault Reply} {content : Bytes}
      {z : Except OsFault Unit} (hf : answer (.fetch url) s = (y, s₁))
      (hw : answer (.writeFile archive content) s₁ = (z, s₂)) :
      (files s₂).root.bare? l = some a := by
    rw [← hfetched hf] at hd ha
    exact (hk.keeps_writeFile hd hw).root l a hl ha
  cases h with
  | notFetched hf hy =>
    rw [hfetched hf]
    exact Or.inl ha
  | notWritten hf hy hw => exact Or.inl (hwritten hf hw)
  | noStaging hf hy hw hd' =>
    rw [hk.files_of_tempDir hd']
    exact Or.inl (hwritten hf hw)
  | @staged s₁ s₂ s₃ s₄ _ reply staging settling _ z hf hy hw hd' hs hr =>
    obtain ⟨c, hadds⟩ := hk.adds_tempDir (by decide) (by decide) hd'
    have ha₂ := hwritten hf hw
    have hthere : ((files s₂).root.get? l).isSome := Node.isSome_bare?_iff.mp (by rw [ha₂]; rfl)
    have hs₂ : afterwards answer s [.fetch url, .writeFile archive reply.body] = s₂ := by
      simp [afterwards, hf, hw]
    have hs₃ := afterwards_fetching hf hw hd'
    rcases hs.keeps hk hversion hunpack hadds.found (hadds.not_prefix hthere)
      (hadds.keeps.root l a trivial ha₂) with ha₄ | hrisk
    · have hs₄ : afterwards answer s (i.fetching url archive reply.body ++ settling) = s₄ := by
        rw [afterwards_append, hs₃, hs.afterwards_eq]
      rcases not_prefix_or_strays (i.fetching url archive reply.body ++
          (settling ++ [.removeTree staging])) hadds hthere (by simp) hs₂ (by simp) hs₄ with
        hr' | ⟨hmem, hstrays⟩
      · exact Or.inl ((hk.keeps_removeTree hadds.name hr).1.root l a hr' ha₄)
      · refine Or.inr (.strayed ?_ hmem hstrays)
        rw [temporaries_staged hf hw hd' hs]
        exact List.mem_singleton_self staging
    · exact Or.inr (hrisk.append hs₃ _)

/-- **What a run leaves as it is**, whatever it comes to.  A file, a directory or a link that
stood somewhere before stands there as before, unless it was at risk. -/
theorem ensure_keeps (hk : KeepsFiles answer files) (hversion : VersionKeepsFiles answer files)
    (hunpack : UnpacksBelow answer files)
    (h : Ran answer (i.ensure t p).run s asked x s') {l : Location} {a : Node}
    (ha : (files s).root.bare? l = some a) :
    (files s').root.bare? l = some a ∨ AtRisk answer files i t s asked l := by
  cases course_of_ran h with
  | found hc =>
    rw [files_of_cached hk hversion hc]
    exact Or.inl ha
  | noRoot hc hm =>
    rw [← files_of_cached hk hversion hc] at ha
    exact Or.inl ((hk.keeps_makeDirs hm).root l a trivial ha)
  | noArchive hc hm hf =>
    rw [← files_of_cached hk hversion hc] at ha
    rw [hk.files_of_tempFile hf]
    exact Or.inl ((hk.keeps_makeDirs hm).root l a trivial ha)
  | @tried s₁ s₂ s₃ s₄ _ looking trying archive _ z hc hm hf ht hr =>
    rw [← files_of_cached hk hversion hc] at ha
    obtain ⟨c, hadds⟩ := hk.adds_tempFile (by decide) (by decide) hf
    have ha₂ := (hk.keeps_makeDirs hm).root l a trivial ha
    have hthere : ((files s₂).root.get? l).isSome := Node.isSome_bare?_iff.mp (by rw [ha₂]; rfl)
    have hs₂ : afterwards answer s (looking ++ [.makeDirs i.root]) = s₂ := by
      rw [afterwards_append, hc.afterwards_eq]
      simp [afterwards, hm]
    have hs₃ := afterwards_looking_preparing hc hm hf
    have hmade := temporaries_tried hc hm hf trying
    rw [← List.append_assoc] at hmade ⊢
    rcases ht.keeps hk hversion hunpack hadds.found
      (fun he => hadds.not_prefix hthere (he ▸ List.prefix_refl l))
      (hadds.keeps.root l a trivial ha₂) with ha₄ | hrisk
    · have hs₄ : afterwards answer s (looking ++ i.preparing ++ trying) = s₄ := by
        rw [afterwards_append, hs₃, ht.afterwards_eq]
      rcases not_prefix_or_strays (looking ++ i.preparing ++ (trying ++ [.removeFile archive]))
          hadds hthere (by simp) hs₂ (by simp) hs₄ with hr' | ⟨hmem, hstrays⟩
      · exact Or.inl ((hk.keeps_removeFile hadds.name hr).1.root l a hr' ha₄)
      · exact Or.inr (.strayed (hmade ▸ List.mem_cons_self) hmem hstrays)
    · exact Or.inr (hrisk.append hs₃ _)

/-- A file beside the directory of the release is kept, though the new release reports another
version. -/
theorem ensure_keeps_notes :
    let ensure := ((⟨"/gate"⟩ : Installer).ensure {} .linuxX86).run
    let d := Depot.ofVersion "0.7.3"
    (ensure.run d.answer Depot.outdated).1.isOk = false ∧
      Depot.outdated.files.root.bare? ["gate".toList, "notes".toList] = some (.file [] false) ∧
      (ensure.run d.answer Depot.outdated).2.files.root.bare? ["gate".toList, "notes".toList] =
        some (.file [] false) := by
  intro ensure d
  refine ⟨by decide +kernel, rfl, ?_⟩
  have hkeeps := ensure_keeps d.keepsFiles d.versionKeepsFiles d.unpacksBelow
    (ran_run ensure Depot.outdated) (l := ["gate".toList, "notes".toList]) (a := .file [] false) rfl
  have hmade : ∀ n ∈ madeUp d.answer Depot.outdated (ensure.history d.answer Depot.outdated),
      n ∉ ["gate".toList, "notes".toList] := by decide +kernel
  refine hkeeps.resolve_right fun hrisk => ?_
  -- neither the name of the release nor a made-up one is on the way to the notes
  rcases hrisk.mem (by decide) with hrelease | ⟨n, hn, hl⟩
  · exact absurd hrelease (by decide)
  · exact hmade n hn hl

/-- **What was in the place of the release is lost**, though the run fails: the new release reports
another version. -/
theorem ensure_loses_outdated :
    let after := ((⟨"/gate"⟩ : Installer).ensure {} .linuxX86).run.run
      (Depot.ofVersion "0.7.3").answer Depot.outdated
    let binary := ["gate".toList, "shellcheck-v0.7.2".toList, "shellcheck".toList]
    after.1.isOk = false ∧
      Depot.outdated.files.root.bare? binary =
        some (.file (Text.encode "version: 0.7.1\n".toList) true) ∧
      after.2.files.root.bare? binary =
        some (.file (Text.encode "version: 0.7.3\n".toList) true) := by
  refine ⟨by decide +kernel, rfl, ?_⟩
  decide +kernel

end Installer
end LintGate
