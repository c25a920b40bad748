import LintGate.Proofs.Text.Style
import LintGate.Proofs.Tool.Course
import LintGate.Proofs.Tool.Status
import LintGate.Proofs.Tool.Version

/-!
# Where the version is checked

Three places look at a version, and not all at the same of what is known: the choice of a source
looks at the version alone, the report at the origin and the version, and the check itself asks
that the executable is there, too.  They agree because a status only ever tells all of it or
nothing, and because a version that is told is a word.

## Main definitions

* `Text.IsWord` — a text without blanks that is not empty.
* `ToolStatus.Coherent` — a status that tells all of it or nothing.
* `StatusReport.ShowsVersion`, `StatusReport.AsksForOther`, `StatusReport.ShowsMatch` — how the line
  of a report on the host's executable is read.

## Main results

* `VersionEntry.isWord_of_find?` — a version that is told is a word.
* `Detect.coherent_of_ran_tool`, `Detect.coherent_of_ran_file` — each status that is detected is
  coherent.
* `StatusReport.hostText_reads` — the line shows a match exactly if there is one.
* `Detect.version_checks_agree` — **all version checks agree.**
-/

namespace LintGate

open Text

/-- A text without blanks that is not empty. -/
def Text.IsWord (s : String) : Prop := s ≠ "" ∧ ∀ c ∈ s.toList, isBlank c = false

/-! ### The version in an output -/

namespace VersionEntry

theorem isWord_of_find? {cs w : List Char} (h : find? cs = some w) : IsWord (String.ofList w) := by
  obtain ⟨hne, hword⟩ := word_of_find? h
  refine ⟨fun he => hne (String.ofList_eq_empty_iff.mp he), fun c hc => hword c ?_⟩
  rwa [String.toList_ofList] at hc

end VersionEntry

/-! ### What is detected -/

namespace ToolStatus

/-- A status tells all of it or nothing, and its version is a word. -/
structure Coherent (s : ToolStatus) : Prop where
  version_iff : s.available = true ↔ s.version.isSome = true
  path_iff : s.available = true ↔ s.path.isSome = true
  origin_iff : s.available = true ↔ s.origin ≠ .notFound
  isWord : ∀ v, s.version = some v → IsWord v

theorem coherent_absent : absent.Coherent where
  version_iff := by decide
  path_iff := by decide
  origin_iff := by decide
  isWord _ h := nomatch h

theorem coherent_present {path v : String} {origin : Origin} (hv : IsWord v)
    (ho : origin ≠ .notFound) : Coherent ⟨true, some path, some v, origin⟩ where
  version_iff := iff_of_true rfl rfl
  path_iff := iff_of_true rfl rfl
  origin_iff := iff_of_true rfl ho
  isWord _ h := Option.some_inj.mp h ▸ hv

/-- A coherent status is that of nothing or that of an executable. -/
theorem Coherent.cases {s : ToolStatus} (h : s.Coherent) :
    s = absent ∨ ∃ path v origin, IsWord v ∧ origin ≠ .notFound ∧
      s = ⟨true, some path, some v, origin⟩ := by
  obtain ⟨available, path, version, origin⟩ := s
  cases available with
  | false =>
    have hv : version = none := by simpa using h.version_iff
    have hp : path = none := by simpa using h.path_iff
    have ho : origin = .notFound := by simpa using h.origin_iff
    exact Or.inl (by rw [hv, hp, ho, absent])
  | true =>
    obtain ⟨v, rfl⟩ := Option.isSome_iff_exists.mp (h.version_iff.mp rfl)
    obtain ⟨p, rfl⟩ := Option.isSome_iff_exists.mp (h.path_iff.mp rfl)
    exact Or.inr ⟨p, v, origin, h.isWord v rfl, h.origin_iff.mp rfl, rfl⟩

/-- It is enough to look at the version. -/
theorem Coherent.matchesVersion_iff {s : ToolStatus} (h : s.Coherent) {required : String} :
    s.matchesVersion required = true ↔ s.version = some required := by
  rw [matchesVersion, Bool.and_eq_true, beq_iff_eq]
  refine and_iff_right_of_imp fun hv => h.version_iff.mpr ?_
  rw [hv, Option.isSome_some]

/-- Only a word is matched. -/
theorem Coherent.matchesVersion_of_not_isWord {s : ToolStatus} (h : s.Coherent) {required : String}
    (hr : ¬ IsWord required) : s.matchesVersion required = false :=
  Bool.eq_false_iff.mpr fun hm => hr (h.isWord _ (h.matchesVersion_iff.mp hm))

end ToolStatus

variable {σ : Type} {answer : (r : Request) → σ → r.Answer × σ} {s s' : σ}
  {asked : List Request}

open Program Installer

namespace Detect

theorem isWord_of_ran_version? {executable v : String}
    (h : Ran answer (version? executable) s asked (some v) s') : IsWord v := by
  obtain ⟨-, x, -, hv⟩ := ran_version?_iff.mp h
  cases x with
  | error e => cases hv
  | ok o =>
    obtain ⟨-, hfind⟩ := told?_eq_some_iff.mp hv.symm
    have hword := VersionEntry.isWord_of_find? hfind
    rwa [String.ofList_toList] at hword

theorem coherent_of_ran_tool {name : String} {status : ToolStatus}
    (h : Ran answer (tool name) s asked status s') : status.Coherent := by
  obtain ⟨_, v, s₁, _, hversion, hrest, -⟩ := ran_bind_iff.mp h
  cases v with
  | none =>
    obtain ⟨-, rfl, -⟩ := ran_done_iff.mp hrest
    exact ToolStatus.coherent_absent
  | some v =>
    obtain ⟨_, path, _, _, -, hdone, -⟩ := ran_bind_iff.mp hrest
    obtain ⟨-, rfl, -⟩ := ran_done_iff.mp hdone
    exact ToolStatus.coherent_present (isWord_of_ran_version? hversion) nofun

theorem coherent_of_ran_file {path : String} {status : ToolStatus}
    (h : Ran answer (file path) s asked status s') : status.Coherent := by
  obtain ⟨_, there, s₁, _, -, hrest, -⟩ := ran_bind_iff.mp h
  cases there with
  | false =>
    obtain ⟨-, rfl, -⟩ := ran_done_iff.mp hrest
    exact ToolStatus.coherent_absent
  | true =>
    obtain ⟨_, v, _, _, hversion, hdone, -⟩ := ran_bind_iff.mp hrest
    cases v with
    | none =>
      obtain ⟨-, rfl, -⟩ := ran_done_iff.mp hdone
      exact ToolStatus.coherent_absent
    | some v =>
      obtain ⟨-, rfl, -⟩ := ran_done_iff.mp hdone
      exact ToolStatus.coherent_present (isWord_of_ran_version? hversion) nofun

end Detect

/-- The choice looks at the host's executable first, and takes it exactly if its version is the
pinned one. -/
theorem Probe.ran_select_hostBinary_iff {p : Probe Program} {c : Config}
    {x : Except Fault ToolSource} (h : Ran answer (p.select c) s asked x s') :
    ∃ first host s₁ rest, Ran answer (p.host c.tool.name) s first host s₁ ∧
      asked = first ++ rest ∧ (x = .ok .hostBinary ↔ host.version = some c.tool.version) := by
  rw [Probe.select_eq_bind] at h
  obtain ⟨first, host, s₁, rest, hhost, hrest, rfl⟩ := ran_bind_iff.mp h
  refine ⟨first, host, s₁, rest, hhost, rfl, ?_⟩
  split at hrest
  · next hv =>
    obtain ⟨-, rfl, -⟩ := ran_done_iff.mp hrest
    exact iff_of_true rfl hv
  · next hv =>
    refine iff_of_false ?_ hv
    obtain ⟨_, reachable, s₂, _, -, hmore, -⟩ := ran_bind_iff.mp hrest
    split at hmore
    · obtain ⟨-, rfl, -⟩ := ran_done_iff.mp hmore
      exact nofun
    · obtain ⟨_, platform, s₃, _, -, hdone, -⟩ := ran_bind_iff.mp hmore
      obtain ⟨-, rfl, -⟩ := ran_done_iff.mp hdone
      cases platform <;> exact nofun

/-! ### What is shown -/

namespace StatusReport

/-- The first word of a line is a version, in some style. -/
def ShowsVersion (colored : Bool) (line v : String) : Prop :=
  IsWord v ∧ ∃ style, line.toList.takeWhile (!isBlank ·) = (paint colored style ("v" ++ v)).toList

/-- Behind its first word a line asks for another version. -/
def AsksForOther (line : String) : Prop :=
  " (need v".toList <+: line.toList.dropWhile (!isBlank ·)

/-- A line shows a version, asks for no other one, and does not tell that nothing was found. -/
structure ShowsMatch (colored : Bool) (line : String) : Prop where
  version : ∃ v, ShowsVersion colored line v
  noOther : ¬ AsksForOther line
  found : line ≠ paint colored .dimmed "not found"

variable {r : StatusReport}

theorem hostText_absent (h : r.host = .absent) (colored : Bool) :
    r.hostText colored = paint colored .dimmed "not found" := by
  rw [hostText, h]
  rfl

theorem hostText_present {path v : String} {origin : Origin} (ho : origin ≠ .notFound)
    (h : r.host = ⟨true, some path, some v, origin⟩) (colored : Bool) :
    r.hostText colored =
      if v = r.requiredVersion then paint colored .green ("v" ++ v) ++ (" at " ++ path)
      else paint colored .yellow ("v" ++ v) ++
        (" (need v" ++ (r.requiredVersion ++ ")" ++ (" at " ++ path))) := by
  obtain ⟨tool, required, host, _⟩ := r
  obtain rfl : host = _ := h
  have hmatch : ToolStatus.matchesVersion ⟨true, some path, some v, origin⟩ required = true ↔
      v = required := by simp [ToolStatus.matchesVersion]
  simp only [← hmatch]
  cases origin with
  | notFound => exact absurd rfl ho
  | systemPath | downloaded =>
    simp only [hostText]
    split
    · rfl
    · simp only [String.append_assoc]

/-- What stands behind the first word is told from it. -/
theorem firstWord_append {word : List Char} (hword : ∀ c ∈ word, isBlank c = false)
    (rest : List Char) :
    (word ++ ' ' :: rest).takeWhile (!isBlank ·) = word ∧
      (word ++ ' ' :: rest).dropWhile (!isBlank ·) = ' ' :: rest := by
  have hall : ∀ c ∈ word, (!isBlank c) = true := fun c hc => by rw [hword c hc]; rfl
  exact takeWhile_append_of_stop hall rfl

/-- A line that starts with a version shows it and goes on behind it. -/
theorem showsVersion_append {v rest : String} (hv : IsWord v) {tail : List Char}
    (hrest : rest.toList = ' ' :: tail) (colored : Bool) (style : Style) :
    ShowsVersion colored (paint colored style ("v" ++ v) ++ rest) v ∧
      (AsksForOther (paint colored style ("v" ++ v) ++ rest) ↔
        " (need v".toList <+: rest.toList) := by
  have hword : ∀ c ∈ ("v" ++ v).toList, isBlank c = false := by
    simp only [String.toList_append, List.forall_mem_append]
    exact ⟨by simp [isBlank], hv.2⟩
  obtain ⟨hfirst, hbehind⟩ :=
    firstWord_append (isBlank_of_mem_paint hword colored style) tail
  rw [ShowsVersion, AsksForOther, String.toList_append, hrest, hfirst, hbehind]
  exact ⟨⟨hv, style, rfl⟩, Iff.rfl⟩

/-- What is said if nothing was found starts with no version. -/
theorem not_showsVersion_notFound (colored : Bool) (v : String) :
    ¬ ShowsVersion colored (paint colored .dimmed "not found") v := by
  rintro ⟨-, style, h⟩
  cases colored with
  | false => simp [isBlank] at h
  | true =>
    simp only [paint, if_pos, String.toList_append, String.toList_ofList] at h
    cases style <;> simp [Style.code, resetCode, restyle, isBlank] at h

/-- **How the line on the host's executable is read.**  It shows a match exactly if there is one,
it shows the version if there is one, and it tells that nothing was found if there is none. -/
theorem hostText_reads (h : r.host.Coherent) (colored : Bool) :
    (r.host.matchesVersion r.requiredVersion = true ↔
      ShowsMatch colored (r.hostText colored)) ∧
    (∀ v, r.host.version = some v → ShowsVersion colored (r.hostText colored) v) ∧
    (r.host.available = false ↔ r.hostText colored = paint colored .dimmed "not found") := by
  rcases h.cases with habsent | ⟨path, v, origin, hv, ho, hpresent⟩
  · rw [hostText_absent habsent, habsent]
    refine ⟨iff_of_false nofun fun hm => ?_, nofun, iff_of_true rfl rfl⟩
    exact hm.found rfl
  · have hat : (" at " ++ path).toList = ' ' :: ("at " ++ path).toList := by simp
    have hneed : (" (need v" ++ (r.requiredVersion ++ ")" ++ (" at " ++ path))).toList =
        ' ' :: ("(need v" ++ (r.requiredVersion ++ ")" ++ (" at " ++ path))).toList := by simp
    have hfound {line : String} (hl : ShowsVersion colored line v) :
        line ≠ paint colored .dimmed "not found" := by
      rintro rfl
      exact not_showsVersion_notFound colored v hl
    rw [h.matchesVersion_iff, hostText_present ho hpresent, hpresent]
    simp only [Option.some_inj, forall_eq']
    split
    · next hmatch =>
      obtain ⟨hshows, hasks⟩ := showsVersion_append hv hat colored .green
      refine ⟨iff_of_true hmatch ⟨⟨v, hshows⟩, fun ha => ?_, hfound hshows⟩, hshows,
        iff_of_false nofun (hfound hshows)⟩
      have hat' := hasks.mp ha
      simp at hat'
    · next hmatch =>
      obtain ⟨hshows, hasks⟩ := showsVersion_append hv hneed colored .yellow
      refine ⟨iff_of_false hmatch fun hm => hm.noOther (hasks.mpr ?_), hshows,
        iff_of_false nofun (hfound hshows)⟩
      rw [String.toList_append]
      exact List.prefix_append _ _

theorem exists_append {line text : String} (tail : String)
    (h : ∃ before after, text = before ++ line ++ after) :
    ∃ before after, text ++ tail = before ++ line ++ after := by
  obtain ⟨before, after, rfl⟩ := h
  exact ⟨before, after ++ tail, String.append_assoc⟩

/-- The line on the host's executable stands in the report. -/
theorem exists_console_eq (r : StatusReport) (colored : Bool) : ∃ before after,
    r.console colored = before ++ ("  • host binary: " ++ r.hostText colored ++ "\n") ++ after := by
  have hline (before label line feed : String) : ∃ before' after,
      before ++ label ++ line ++ feed = before' ++ (label ++ line ++ feed) ++ after :=
    ⟨before, "", by simp only [String.append_assoc, String.append_empty]⟩
  unfold console
  -- Eleven pieces of text stand behind the line.
  iterate 11 refine exists_append _ ?_
  exact hline _ _ _ _

theorem selected_ofFacts_hostBinary_iff (c : Config) (f : ToolFacts) (cached : Option String) :
    (ofFacts c f cached).selected = some .hostBinary ↔ f.host.version = some c.tool.version := by
  rw [ofFacts, selectSource_eq]
  split
  · next h => exact iff_of_true rfl h
  · next h =>
    refine iff_of_false (fun hhost => ?_) h
    split at hhost
    · cases hhost
    · split at hhost <;> cases hhost

end StatusReport

/-! ### All of them -/

namespace Detect

/-- **All version checks agree.**  Whatever the machine answers, a status that is detected tells
all of it or nothing, and its version is a word.  So the choice takes the host's executable
exactly if it matches the pinned version, and a report tells this choice exactly if its own line on
the host's executable shows a match.  A pinned version that is no word is matched by nothing: not
by an executable of the host, and not by one that was downloaded before. -/
theorem version_checks_agree (answer : (r : Request) → σ → r.Answer × σ) (u : Surroundings)
    (i : Installer) (c : Config) :
    (∀ name s asked status s', Ran answer (tool name) s asked status s' → status.Coherent) ∧
    (∀ path s asked status s', Ran answer (file path) s asked status s' → status.Coherent) ∧
    (∀ s asked x s', Ran answer ((probe u).select c) s asked x s' →
      ∃ first host s₁ rest, Ran answer (tool c.tool.name) s first host s₁ ∧
        asked = first ++ rest ∧
        (x = .ok .hostBinary ↔ host.matchesVersion c.tool.version = true)) ∧
    (∀ s asked r s', Ran answer (ToolStatusTask.report (probe u) i c) s asked r s' →
      (∃ first s₁ rest, Ran answer (tool c.tool.name) s first r.host s₁ ∧ asked = first ++ rest) ∧
      (r.selected = some .hostBinary ↔ r.host.matchesVersion c.tool.version = true) ∧
      ∀ colored,
        (r.host.matchesVersion c.tool.version = true ↔
          StatusReport.ShowsMatch colored (r.hostText colored)) ∧
        (∀ v, r.host.version = some v →
          StatusReport.ShowsVersion colored (r.hostText colored) v) ∧
        ∃ before after, r.console colored =
          before ++ ("  • host binary: " ++ r.hostText colored ++ "\n") ++ after) ∧
    (¬ IsWord c.tool.version →
      (∀ s asked x s', Ran answer ((probe u).select c) s asked x s' → x ≠ .ok .hostBinary) ∧
      ∀ s asked found s', Ran answer (i.cached c.tool) s asked found s' → found = none) := by
  have hselect : ∀ s asked x s', Ran answer ((probe u).select c) s asked x s' →
      ∃ first host s₁ rest, Ran answer (tool c.tool.name) s first host s₁ ∧
        asked = first ++ rest ∧
        (x = .ok .hostBinary ↔ host.matchesVersion c.tool.version = true) := by
    intro s asked x s' h
    obtain ⟨first, host, s₁, rest, hhost, hasked, hx⟩ := Probe.ran_select_hostBinary_iff h
    exact ⟨first, host, s₁, rest, hhost, hasked,
      hx.trans (coherent_of_ran_tool hhost).matchesVersion_iff.symm⟩
  refine ⟨fun _ _ _ _ _ => coherent_of_ran_tool, fun _ _ _ _ _ => coherent_of_ran_file, hselect,
    fun s asked r s' h => ?_, fun hpinned => ⟨fun s asked x s' h hx => ?_,
      fun s asked found s' h => ?_⟩⟩
  · obtain ⟨first, host, s₁, second, reachable, s₂, third, platform, s₃, last, cached, hhost,
      -, -, -, rfl, rfl⟩ := ToolStatusTask.ran_report_iff.mp h
    have hcoherent := coherent_of_ran_tool hhost
    refine ⟨⟨first, s₁, _, hhost, rfl⟩, ?_, fun colored => ?_⟩
    · exact (StatusReport.selected_ofFacts_hostBinary_iff c _ cached).trans
        hcoherent.matchesVersion_iff.symm
    · obtain ⟨hmatch, hversion, -⟩ := StatusReport.hostText_reads
        (r := .ofFacts c ⟨host, reachable, platform, (probe u).machine⟩ cached) hcoherent colored
      exact ⟨hmatch, hversion, StatusReport.exists_console_eq _ colored⟩
  · obtain ⟨_, host, _, _, hhost, -, hiff⟩ := hselect s asked x s' h
    have hmatch := hiff.mp hx
    rw [(coherent_of_ran_tool hhost).matchesVersion_of_not_isWord hpinned] at hmatch
    exact nomatch hmatch
  · obtain ⟨_, status, _, _, hfile, hdone, -⟩ := ran_bind_iff.mp h
    obtain ⟨-, rfl, -⟩ := ran_done_iff.mp hdone
    rw [(coherent_of_ran_file hfile).matchesVersion_of_not_isWord hpinned]
    rfl

end Detect
end LintGate
