import LintGate.Proofs.Discovery.Pruning

/-!
# What more rules and fewer rules find

More exclude rules and fewer include rules leave fewer paths, and prune more directories.  The
walk then comes to fewer files, and it keeps fewer of those it comes to.  So the change goes one
way only, although the part of the tree that is walked changes with the rules.

## Main definitions

* `PathRules.Narrows`, `Filter.Narrows` — rules that leave no more than others.

## Main results

* `PathRules.Narrows.eligible`, `PathRules.Narrows.prunes` — what narrower rules leave and prune.
* `Filter.Narrows.candidates_sublist` — the candidates of a tree.
* `find_narrows` — **the scripts that are found with other rules.**
-/

namespace LintGate

namespace PathRules

/-- Rules that leave no more than others: they exclude with all rules of the others, and include
with no other rules. -/
structure Narrows (narrow rules : PathRules) : Prop where
  excluded : rules.excluded ⊆ narrow.excluded
  included : narrow.included ⊆ rules.included

namespace Narrows

variable {narrow rules : PathRules}

theorem any_of_subset {rs rs' : List Rule} {test : Rule → Bool} (hsub : rs ⊆ rs')
    (h : rs.any test = true) : rs'.any test = true := by
  obtain ⟨r, hr, htest⟩ := List.any_eq_true.mp h
  exact List.any_eq_true.mpr ⟨r, hsub hr, htest⟩

/-- What narrower rules leave is left by the others. -/
theorem eligible (h : narrow.Narrows rules) {path : Components}
    (he : narrow.eligible path = true) : rules.eligible path = true := by
  rw [PathRules.eligible, Bool.or_eq_true, Bool.not_eq_true'] at he ⊢
  rcases he with hex | hinc
  · refine Or.inl (Bool.eq_false_iff.mpr fun hcovered => ?_)
    rw [any_of_subset h.excluded hcovered] at hex
    cases hex
  · exact Or.inr (any_of_subset h.included hinc)

/-- What the others prune is pruned by narrower rules. -/
theorem prunes (h : narrow.Narrows rules) {dir : Components} (hp : rules.prunes dir = true) :
    narrow.prunes dir = true := by
  rw [PathRules.prunes, Bool.and_eq_true, Bool.not_eq_true'] at hp ⊢
  refine ⟨any_of_subset h.excluded hp.1, Bool.eq_false_iff.mpr fun hreached => ?_⟩
  rw [any_of_subset h.included hreached] at hp
  cases hp.2

end Narrows

/-- The rules that are read are those that the texts spell, wherever they stand. -/
theorem mem_of_readAll? {raws : List String} {rs : List Rule} (h : readAll? raws = .ok rs)
    {r : Rule} : r ∈ rs ↔ ∃ raw ∈ raws, Rule.ofText? raw = .ok r := by
  induction raws generalizing rs with
  | nil =>
    cases h
    simp
  | cons raw raws ih =>
    rw [readAll?] at h
    cases hraw : Rule.ofText? raw with
    | error f =>
      rw [hraw] at h
      cases h
    | ok r₀ =>
      rw [hraw] at h
      cases hraws : readAll? raws with
      | error f =>
        rw [hraws] at h
        cases h
      | ok rs₀ =>
        rw [hraws] at h
        cases h
        simp [ih hraws, hraw, eq_comm]

theorem subset_of_readAll? {raws raws' : List String} {rs rs' : List Rule}
    (h : readAll? raws = .ok rs) (h' : readAll? raws' = .ok rs') (hsub : raws ⊆ raws') :
    rs ⊆ rs' := by
  intro r hr
  obtain ⟨raw, hraw, hread⟩ := (mem_of_readAll? h).mp hr
  exact (mem_of_readAll? h').mpr ⟨raw, hsub hraw, hread⟩

/-- Both lists of rules can be read, each on its own. -/
theorem readAll?_of_ofTexts? {ex inc : List String} {rules : PathRules}
    (h : ofTexts? ex inc = .ok rules) :
    readAll? ex = .ok rules.excluded ∧ readAll? inc = .ok rules.included := by
  rw [ofTexts?] at h
  cases hex : readAll? ex with
  | error f =>
    rw [hex] at h
    cases h
  | ok rs =>
    cases hinc : readAll? inc with
    | error f =>
      rw [hex, hinc] at h
      cases h
    | ok rs' =>
      rw [hex, hinc] at h
      cases h
      exact ⟨rfl, rfl⟩

/-- More exclude rules and fewer include rules are narrower, in whatever order they are
written. -/
theorem narrows_of_ofTexts? {ex inc ex' inc' : List String} {rules narrow : PathRules}
    (h : ofTexts? ex inc = .ok rules) (h' : ofTexts? ex' inc' = .ok narrow) (hex : ex ⊆ ex')
    (hinc : inc' ⊆ inc) : narrow.Narrows rules where
  excluded := subset_of_readAll? (readAll?_of_ofTexts? h).1 (readAll?_of_ofTexts? h').1 hex
  included := subset_of_readAll? (readAll?_of_ofTexts? h').2 (readAll?_of_ofTexts? h).2 hinc

end PathRules

namespace Discovery

/-- A filter that keeps no more than another with the same extensions. -/
structure Filter.Narrows (narrow f : Filter) : Prop where
  extensions : narrow.extensions = f.extensions
  rules : narrow.rules.Narrows f.rules

namespace Filter.Narrows

variable {narrow f : Filter}

theorem hasExtension (h : narrow.Narrows f) (ext : Option (List Char)) :
    narrow.hasExtension ext = f.hasExtension ext := by
  rw [Filter.hasExtension, h.extensions, Filter.hasExtension]

theorem keeps (h : narrow.Narrows f) {ns : Names} (hk : narrow.keeps ns = true) :
    f.keeps ns = true := by
  rw [Filter.keeps, Bool.and_eq_true] at hk ⊢
  exact ⟨h.hasExtension _ ▸ hk.1, h.rules.eligible hk.2⟩

theorem blocks (h : narrow.Narrows f) {trail ns : Names} (hb : f.blocks trail ns = true) :
    narrow.blocks trail ns = true := by
  obtain ⟨dir, rest, he, hdir, hrest, hp⟩ := blocks_iff.mp hb
  exact blocks_iff.mpr ⟨dir, rest, he, hdir, hrest, h.rules.prunes hp⟩

/-- A file that the walk comes to and keeps with the narrower filter, it comes to and keeps with
the other. -/
theorem takes (h : narrow.Narrows f) {trail ns : Names} (ht : narrow.takes trail ns = true) :
    f.takes trail ns = true := by
  rw [Filter.takes, Bool.and_eq_true, Bool.not_eq_true'] at ht ⊢
  refine ⟨h.keeps ht.1, Bool.eq_false_iff.mpr fun hb => ?_⟩
  rw [h.blocks hb] at ht
  exact nomatch ht.2

/-- **The candidates of a tree** with a narrower filter are some of those with the other, in the
same order. -/
theorem candidates_sublist (h : narrow.Narrows f) (root : Entry) :
    (candidates narrow root).Sublist (candidates f root) := by
  cases root with
  | file name =>
    have hroot {g : Filter} : candidates g (.file name) =
        if g.hasExtension (Path.nameExtension? name) && g.eligible (.ofNames []) then
          [.ofNames []] else [] := rfl
    rw [hroot, hroot, h.hasExtension]
    split
    · next hk =>
      rw [Bool.and_eq_true] at hk
      have heligible : f.eligible (.ofNames []) = true := h.rules.eligible hk.2
      rw [hk.1, heligible]
      exact List.Sublist.refl _
    · exact List.nil_sublist _
  | other name => exact List.Sublist.refl []
  | directory name es =>
    rw [candidates_eq, candidates_eq]
    exact (List.monotone_filter_right _ fun _ => h.takes).map _

end Filter.Narrows

/-- The scripts that are found in any place, if the oracle never faults. -/
theorem find_pure (f : Filter) (ignored : ScriptPath → Bool) (root : Option Entry) :
    find (m := Id) f (fun s => pure (ignored s)) root =
      pure (((root.map (candidates f)).getD []).filter fun s => !ignored s) :=
  sift_pure ignored _

theorem Filter.rules_of_ofConfig? {c : DiscoveryConfig} {f : Filter}
    (h : Filter.ofConfig? c = .ok f) :
    f.extensions = c.extensions ∧ PathRules.ofTexts? c.excluded c.included = .ok f.rules := by
  rw [Filter.ofConfig?] at h
  split at h
  · next rules hrules =>
    cases h
    exact ⟨rfl, hrules⟩
  · cases h

/-- The scripts that are found with narrower rules. -/
theorem find_sublist {c c' : DiscoveryConfig} {f f' : Filter} (hc : Filter.ofConfig? c = .ok f)
    (hc' : Filter.ofConfig? c' = .ok f') (hext : c'.extensions = c.extensions)
    (hex : c.excluded ⊆ c'.excluded) (hinc : c'.included ⊆ c.included)
    (ignored : ScriptPath → Bool) (root : Option Entry) :
    (((root.map (candidates f')).getD []).filter fun s => !ignored s).Sublist
      (((root.map (candidates f)).getD []).filter fun s => !ignored s) := by
  obtain ⟨hfext, hrules⟩ := Filter.rules_of_ofConfig? hc
  obtain ⟨hfext', hrules'⟩ := Filter.rules_of_ofConfig? hc'
  have hnarrow : f'.Narrows f := by
    refine ⟨?_, PathRules.narrows_of_ofTexts? hrules hrules' hex hinc⟩
    rw [hfext, hfext', hext]
  cases root with
  | none => exact List.Sublist.refl []
  | some root => exact (hnarrow.candidates_sublist root).filter _

/-- **What more rules and fewer rules find.**  For every tree and every oracle that never faults:
with more exclude rules or fewer include rules some of the scripts are found, in the same order;
with fewer exclude rules or more include rules all of them and maybe others; and with the same
rules in another order, or repeated, the same scripts. -/
theorem find_narrows {c c' : DiscoveryConfig} {f f' : Filter} (hc : Filter.ofConfig? c = .ok f)
    (hc' : Filter.ofConfig? c' = .ok f') (hext : c'.extensions = c.extensions)
    (ignored : ScriptPath → Bool) (root : Option Entry) :
    ∃ found found',
      find (m := Id) f (fun s => pure (ignored s)) root = pure found ∧
      find (m := Id) f' (fun s => pure (ignored s)) root = pure found' ∧
      (c.excluded ⊆ c'.excluded → c'.included ⊆ c.included → found'.Sublist found) ∧
      (c'.excluded ⊆ c.excluded → c.included ⊆ c'.included → found.Sublist found') ∧
      ((∀ r, r ∈ c'.excluded ↔ r ∈ c.excluded) → (∀ r, r ∈ c'.included ↔ r ∈ c.included) →
        found' = found) := by
  have hnarrow := find_sublist hc hc' hext
  have hwide := find_sublist hc' hc hext.symm
  refine ⟨_, _, find_pure f ignored root, find_pure f' ignored root,
    fun hex hinc => hnarrow hex hinc ignored root, fun hex hinc => hwide hex hinc ignored root,
    fun hex hinc => ?_⟩
  -- Lists of rules with the same members are narrower than each other.
  have hsub := hnarrow (fun r => (hex r).mpr) (fun r => (hinc r).mp) ignored root
  have hsup := hwide (fun r => (hex r).mp) (fun r => (hinc r).mpr) ignored root
  exact hsub.antisymm hsup

/-- An exclude rule more in front, and an include rule less: of three scripts one is left. -/
theorem find_narrows_vendored :
    ∃ f f', Filter.ofConfig? ⟨["sh"], ["vendor"], ["vendor/kept"], "list"⟩ = .ok f ∧
      Filter.ofConfig? ⟨["sh"], ["ha?k", "vendor"], [], "list"⟩ = .ok f' ∧
      ∃ found found' : List ScriptPath,
        find (m := Id) f (fun _ => pure false)
          (some (.directory [] [.directory "vendor".toList
              [.directory "kept".toList [.file "c.sh".toList]],
            .file "a.sh".toList, .directory "hack".toList [.file "b.sh".toList]])) = pure found ∧
        find (m := Id) f' (fun _ => pure false)
          (some (.directory [] [.directory "vendor".toList
              [.directory "kept".toList [.file "c.sh".toList]],
            .file "a.sh".toList, .directory "hack".toList [.file "b.sh".toList]])) = pure found' ∧
        found = [⟨"a.sh"⟩, ⟨"hack/b.sh"⟩, ⟨"vendor/kept/c.sh"⟩] ∧ found' = [⟨"a.sh"⟩] ∧
        found'.Sublist found := by
  have hc : Filter.ofConfig? ⟨["sh"], ["vendor"], ["vendor/kept"], "list"⟩ =
      .ok ⟨["sh"], ⟨[⟨["vendor".toList.map .char]⟩],
        [⟨["vendor".toList.map .char, "kept".toList.map .char]⟩]⟩⟩ := by cbv
  have hc' : Filter.ofConfig? ⟨["sh"], ["ha?k", "vendor"], [], "list"⟩ =
      .ok ⟨["sh"], ⟨[⟨[[.char 'h', .char 'a', .any, .char 'k']]⟩,
        ⟨["vendor".toList.map .char]⟩], []⟩⟩ := by cbv
  refine ⟨_, _, hc, hc', ?_⟩
  obtain ⟨found, found', hfound, hfound', hsub, -⟩ := find_narrows hc hc' rfl (fun _ => false)
    (some (.directory [] [.directory "vendor".toList
        [.directory "kept".toList [.file "c.sh".toList]],
      .file "a.sh".toList, .directory "hack".toList [.file "b.sh".toList]]))
  have hinj {a b : List ScriptPath} (h : (pure a : ExceptT Fault Id _) = pure b) : a = b :=
    Except.ok.inj h
  refine ⟨found, found', hfound, hfound', ?_, ?_, hsub (by simp) (by simp)⟩
  · rw [← hinj ((find_pure _ (fun _ => false) _).symm.trans hfound)]
    decide +kernel
  · rw [← hinj ((find_pure _ (fun _ => false) _).symm.trans hfound')]
    decide +kernel

end Discovery
end LintGate
