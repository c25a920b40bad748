import LintGate.Proofs.Machine.Files
import LintGate.Proofs.Tool.Course

/-!
# A release in the place of another

What was there makes room, and the new release is moved into its place.  Nothing of the old one
is left in the new one, and nothing is changed outside of the two places.

## Main definitions

* `FileSystem.Replaces` — what stood in one place stands whole in another.

## Main results

* `FileSystem.replaces_of_erases` — what is moved after room was made was there before, whole.
* `Installer.replace_keeps` — what is left as it is, also if a step fails.
* `Installer.replaces_of_ran` — **the new release stands whole in its place.**
-/

namespace LintGate

open Program

namespace FileSystem

open Node

variable {fs fs₁ fs₂ : FileSystem} {source target : String}

/-- What stood in one place stands whole in another. -/
structure Replaces (fs : FileSystem) (source target : String) (fs' : FileSystem) : Prop where
  intro ::
  exists_node : ∃ l m y, fs.place source = .ok l ∧ fs.root.get? l = some y ∧
    fs.place target = .ok m ∧ fs'.root.get? m = some y

theorem replaces_of_rename (h : fs.rename source target = .ok fs₁) :
    fs.Replaces source target fs₁ := by
  obtain ⟨y, hmoves, -⟩ := moves_of_rename h
  obtain ⟨l, m, hl, hm, hy, -⟩ := id hmoves
  exact ⟨l, m, y, hl, hy, hm, hmoves.get? hm⟩

/-- Something that stands in a place is not the root. -/
theorem ne_nil_of_place {path : String} {l : Location} (h : fs.place path = .ok l) : l ≠ [] := by
  obtain ⟨above, -, rfl, -⟩ := exists_above h
  simp

/-- If the root was erased, nothing can be moved. -/
theorem resolve_ne_nil_of_moves {y : Node} (he : fs.Erases target fs₁)
    (hm : fs₁.Moves source target y fs₂) : fs.resolve false target ≠ .ok [] := by
  intro hnil
  obtain ⟨r, hr, rfl⟩ := he
  rw [hr, Except.ok.injEq] at hnil
  subst hnil
  obtain ⟨l, m, hl, -, hy, -⟩ := hm
  rw [get?_erase List.nil_prefix (ne_nil_of_place hl)] at hy
  exact nomatch hy

/-- What was erased did not stand below what is moved: nothing is moved into itself, and no
directory into the place of a link. -/
theorem not_prefix_of_moves {y : Node} {l m r : Location} (he : fs.Erases target fs₁)
    (hr : fs.resolve false target = .ok r) (hrnil : r ≠ []) (hm : fs₁.place target = .ok m)
    (hy : fs₁.root.get? l = some y) (hlm : l = m ∨ ¬ l <+: m)
    (hlink : y.isDir = true → ∀ t, fs₁.root.get? m ≠ some (.link t)) : ¬ l <+: r := by
  intro hlr
  have hgone {k : Location} (hz : (fs₁.root.get? k).isSome) : ¬ r <+: k :=
    he.not_prefix hr hrnil hz
  have hrl : ¬ r <+: l := hgone (by rw [hy]; rfl)
  have hrm : r ≠ m := by
    rintro rfl
    rcases hlm with rfl | hne
    · exact hrl (List.prefix_refl _)
    · exact hne hlr
  have hback := he.keeps_back fun hnil => hrnil (by rw [hr] at hnil; cases hnil; rfl)
  obtain ⟨t, ht⟩ := (resolve_eq_place_or_link hr (hback.place hm)).resolve_left hrm
  refine hlink ?_ t ?_
  · -- What has something below it is a directory.
    have hdir : fs.root.bare? l = some .empty := by
      obtain ⟨rest, rfl⟩ := hlr
      cases rest with
      | nil => exact absurd ((List.append_nil l).symm ▸ List.prefix_refl l) hrl
      | cons n rest => exact bare?_eq_empty_iff.mpr (exists_dir_of_isSome (isSome_of_resolve hr))
    obtain ⟨es, hes⟩ := bare?_eq_empty_iff.mp (he.keeps.root l _
      (fun r' hr' => by rw [hr] at hr'; cases hr'; exact hrl) hdir)
    rw [hes, Option.some_inj] at hy
    rw [← hy]
    rfl
  · -- The link is left where it was.
    obtain ⟨above, -, rfl, habove, -⟩ := exists_above hm
    rw [← bare?_eq_some_iff rfl] at ht ⊢
    refine he.keeps.root _ _ (fun r' hr' hp => ?_) ht
    rw [hr, Except.ok.injEq] at hr'
    subst hr'
    rcases List.prefix_concat_iff.mp hp with hp | hp
    · exact hrm hp
    · exact hgone (isSome_bare?_iff.mp (by rw [habove]; rfl)) hp

/-- **What is moved after room was made was there before, whole**: nothing of it was removed. -/
theorem replaces_of_erases (he : fs.Erases target fs₁)
    (h : fs₁.rename source target = .ok fs₂) : fs.Replaces source target fs₂ := by
  obtain ⟨y, hmoves, hlink⟩ := moves_of_rename h
  have hnil := resolve_ne_nil_of_moves he hmoves
  have hback := he.keeps_back hnil
  obtain ⟨l, m, hl, hm, hy, hlm⟩ := id hmoves
  refine ⟨l, m, y, hback.place hl, ?_, hback.place hm, hmoves.get? hm⟩
  obtain ⟨r, hr, hfs₁⟩ := id he
  have hrnil : r ≠ [] := fun hr' => hnil (hr' ▸ hr)
  have hrl : ¬ r <+: l := he.not_prefix hr hrnil (by rw [hy]; rfl)
  have hlr : ¬ l <+: r := not_prefix_of_moves he hr hrnil hm hy (hlm.imp And.left And.left)
    fun hdir t => hlink hdir m t hm
  rw [hfs₁] at hy
  rw [← hy]
  exact (get?_erase_of_apart hrl hlr fs.root).symm

end FileSystem

namespace Installer

variable {σ : Type} {answer : (r : Request) → σ → r.Answer × σ} {files : σ → FileSystem}
  {i : Installer} {t : ToolConfig} {s s' : σ} {asked : List Request} {target url staging : String}

/-- Making room removes what the path leads to, and nothing else, or fails. -/
theorem MakesRoom.keeps (hk : KeepsFiles answer files) {x : Except OsFault Unit}
    (h : MakesRoom answer target s asked x s') :
    (files s).Keeps (files s')
      (fun l => ∀ r, (files s).resolve false target = .ok r → ¬ r <+: l) ∧
    (x = .ok () → files s' = files s ∨ (files s).Erases target (files s')) := by
  cases h with
  | free h =>
    have hlook := hk.look (.isThere target) s id
    rw [h] at hlook
    rw [hlook]
    exact ⟨.refl _ _, fun _ => Or.inl rfl⟩
  | @taken s₁ _ _ h hr =>
    have hlook := hk.look (.isThere target) s id
    have hremove := hk.removeTree target s₁
    rw [h] at hlook
    rw [hr, hlook] at hremove
    cases hremove with
    | ok hdone =>
      have he := FileSystem.erases_of_removeTree hdone
      exact ⟨he.keeps, fun _ => Or.inr he⟩
    | error e hleft => exact ⟨hleft.1, nofun⟩

/-- **What is left as it is**: everything that is not at or below one of the two places. -/
theorem replace_keeps (hk : KeepsFiles answer files) {x : Except Fault Unit}
    (h : Ran answer (i.replace t url staging).run s asked x s') :
    (files s).Keeps (files s') fun l => ∀ k, (files s).Names (t.releaseDir i.root) k ∨
      (files s).Names (t.releaseDir staging) k → ¬ k <+: l := by
  have hroom {room : List Request} {y : Except OsFault Unit} {s₁ : σ}
      (h : MakesRoom answer (t.releaseDir i.root) s room y s₁) :
      (files s).Keeps (files s₁) fun l => ∀ k, (files s).Names (t.releaseDir i.root) k ∨
        (files s).Names (t.releaseDir staging) k → ¬ k <+: l :=
    (h.keeps hk).1.mono fun l hl r hr => hl r (Or.inl (Or.inl hr))
  rcases ran_replace h with ⟨e, hmake, -⟩ | ⟨room, s₁, y, hmake, hmove, -, -⟩
  · exact hroom hmake
  · have hrename := hk.rename (t.releaseDir staging) (t.releaseDir i.root) s₁
    rw [hmove] at hrename
    refine (hroom hmake).trans ?_
    cases hrename with
    | error e hleft =>
      rw [hleft]
      exact .refl _ _
    | ok hdone =>
      obtain ⟨z, hmoves, -⟩ := FileSystem.moves_of_rename hdone
      rcases (hmake.keeps hk).2 rfl with hsame | he
      · rw [hsame] at hmoves
        rw [hsame]
        exact hmoves.keeps.mono fun l hl k hnames => hl k hnames.symm
      · -- The places are the same as before room was made.
        have hback := he.keeps_back (FileSystem.resolve_ne_nil_of_moves he hmoves)
        exact hmoves.keeps.mono fun l hl k hnames =>
          hl k (hnames.symm.imp (.of_keeps hback) (.of_keeps hback))

/-- **The new release stands whole in its place.** -/
theorem replaces_of_ran (hk : KeepsFiles answer files)
    (h : Ran answer (i.replace t url staging).run s asked (.ok ()) s') :
    (files s).Replaces (t.releaseDir staging) (t.releaseDir i.root) (files s') := by
  rcases ran_replace h with ⟨e, -, he⟩ | ⟨room, s₁, y, hmake, hmove, hy, -⟩
  · exact nomatch he
  · have hrename := hk.rename (t.releaseDir staging) (t.releaseDir i.root) s₁
    rw [hmove, hy.mp rfl] at hrename
    cases hrename with
    | ok hdone =>
      rcases (hmake.keeps hk).2 rfl with hsame | he
      · rw [hsame] at hdone
        exact FileSystem.replaces_of_rename hdone
      · exact FileSystem.replaces_of_erases he hdone

/-- What is asked is about the two places only. -/
theorem mem_of_ran_replace {x : Except Fault Unit}
    (h : Ran answer (i.replace t url staging).run s asked x s') :
    ∀ r ∈ asked, r = .isThere (t.releaseDir i.root) ∨ r = .removeTree (t.releaseDir i.root) ∨
      r = .rename (t.releaseDir staging) (t.releaseDir i.root) := by
  have hroom {room : List Request} {y : Except OsFault Unit} {s₁ : σ}
      (h : MakesRoom answer (t.releaseDir i.root) s room y s₁) :
      ∀ r ∈ room, r = .isThere (t.releaseDir i.root) ∨ r = .removeTree (t.releaseDir i.root) := by
    cases h with
    | free => simp
    | taken => simp
  rcases ran_replace h with ⟨e, hmake, -⟩ | ⟨room, s₁, y, hmake, -, -, rfl⟩
  · exact fun r hr => (hroom hmake r hr).imp_right Or.inl
  · intro r hr
    rcases List.mem_append.mp hr with hr | hr
    · exact (hroom hmake r hr).imp_right Or.inl
    · exact Or.inr (Or.inr (List.mem_singleton.mp hr))

end Installer
end LintGate
