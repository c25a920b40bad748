import LintGate.Proofs.Machine.Resolve
import LintGate.Proofs.Path
import LintGate.Proofs.Text.Lines

/-!
# The place of the last name

The last name of a path has a place in the directory above, whether anything stands there or
not.  If something does, the path leads to its place, but for a link at the end that is followed.

## Main definitions

* `FileSystem.Usable` — the paths that are looked up at all.
* `FileSystem.lastName` — the last name of a path.
* `FileSystem.EndsInName` — the paths that end in a name.

## Main results

* `resolve_of_keeps`, `place_of_keeps` — paths in a tree that has more in it.
* `isSome_of_resolve` — something stands where a path leads.
* `resolve_of_place`, `place_of_resolve` — where a path leads, and the place of its last name.
-/

namespace LintGate

open Text

namespace FileSystem

open Node

variable {fs fs' : FileSystem} {follow : Bool} {path : String} {l m r : Location}

/-! ### Names of a path -/

/-- A path ends in a name if it does not end in a slash. -/
theorem names_concat {c : Char} (cs : List Char) (hc : c ≠ '/') :
    ∃ ps p, names (cs ++ [c]) = ps ++ [p ++ [c]] := by
  have hlast : '/' ∉ [c] := by simpa using hc.symm
  obtain ⟨ps, p, -, hsplit⟩ := splitOn_append_of_not_mem cs hlast
  exact ⟨ps.filter (· ≠ []), p, by simp [names, hsplit]⟩

theorem steps_ne_nil {p : List Char} (h : p ≠ []) : steps p ≠ [] := by
  obtain ⟨cs, c, rfl⟩ := (List.eq_nil_or_concat p).resolve_left h
  rw [List.concat_eq_append, steps]
  split
  · simp
  · next hslash =>
    obtain ⟨ps, p, hnames⟩ := names_concat cs (c := c) (by simpa [endsInSlash] using hslash)
    simp [hnames]

/-- The last name of a path. -/
def lastName (path : String) : List Char := (names path.toList).getLastD ['.']

/-- A path with a last name consists of the names above and this name. -/
theorem names_eq (h : IsDown (lastName path)) :
    names path.toList = (names path.toList).dropLast ++ [lastName path] := by
  rw [lastName] at h ⊢
  rcases List.eq_nil_or_concat (names path.toList) with hnil | ⟨ns, n, hns⟩
  · rw [hnil] at h
    exact absurd rfl h.1
  · simp [hns]

theorem endsInSlash_join (base : String) {n : List Char} (hn : n ≠ []) (hslash : '/' ∉ n) :
    endsInSlash (Path.join base (String.ofList n)).toList = false := by
  obtain ⟨front, -, hfront⟩ := Path.exists_joinChars base.toList
  rw [Path.join, String.toList_ofList, String.toList_ofList,
    hfront n (Path.isAbsolute_of_not_mem hslash), endsInSlash,
    List.getLast?_append, Option.or_of_isSome (List.getLast?_isSome.mpr hn),
    beq_eq_false_iff_ne]
  exact fun h => hslash (List.mem_of_getLast? h)

/-- The last name of a path that is seen from a directory. -/
theorem lastName_join (base : String) {n : List Char} (hn : n ≠ []) (hslash : '/' ∉ n) :
    lastName (Path.join base (String.ofList n)) = n := by
  obtain ⟨front, hend, hfront⟩ := Path.exists_joinChars base.toList
  have hname : names n = [n] := by simp [names, splitOn_of_not_mem hslash, hn]
  rw [lastName, Path.join, String.toList_ofList, String.toList_ofList,
    hfront n (Path.isAbsolute_of_not_mem hslash)]
  rcases hend with rfl | ⟨above, rfl⟩
  · rw [List.nil_append, hname]
    rfl
  · rw [List.append_assoc, List.singleton_append, names, splitOn_append, List.filter_append]
    rw [names] at hname
    rw [hname, List.getLastD_concat]

/-! ### Where a path leads -/

/-- A path that is looked up at all. -/
structure Usable (path : String) : Prop where
  nul : path.toList.contains (Char.ofNat 0) = false
  ne_nil : path.toList ≠ []
  short : isTooLong path = false

theorem resolve_eq_ok_iff :
    fs.resolve follow path = .ok l ↔ Usable path ∧
      go fs.root follow maxLinks (origin fs.current path.toList) (steps path.toList) = .ok l := by
  unfold resolve walk
  dsimp only
  constructor
  · intro h
    split at h
    · exact nomatch h
    · next hlong =>
      split at h
      · exact nomatch h
      · next hnul =>
        split at h
        · exact nomatch h
        · next hnil =>
          rw [Bool.not_eq_true] at hnul
          refine ⟨⟨hnul, hnil, Bool.eq_false_iff.mpr fun htoo => hlong ⟨htoo, ?_⟩⟩, h⟩
          rw [hnul]
          rfl
  · rintro ⟨⟨hnul, hnil, hshort⟩, h⟩
    rw [if_neg (by simp [hshort]), hnul, if_neg Bool.false_ne_true, if_neg hnil]
    exact h

theorem place_eq_ok_iff :
    fs.place path = .ok l ↔ Usable path ∧ IsDown (lastName path) ∧ ∃ above,
      go fs.root true maxLinks (origin fs.current path.toList)
          ((names path.toList).dropLast ++ [['.']]) = .ok above ∧
        nameTooLong above (lastName path) = false ∧ l = above ++ [lastName path] := by
  unfold place
  dsimp only
  constructor
  · intro h
    split at h
    · exact nomatch h
    · next hnul =>
      split at h
      · exact nomatch h
      · next hnil =>
        split at h
        · exact nomatch h
        · next hshort =>
          split at h
          · exact nomatch h
          · next above habove =>
            split at h
            · exact nomatch h
            · next hdown =>
              split at h
              · exact nomatch h
              · next hname =>
                rw [Bool.not_eq_true] at hnul hshort hname
                cases h
                exact ⟨⟨hnul, hnil, hshort⟩, not_or.mp hdown, above, habove, hname, rfl⟩
  · rintro ⟨⟨hnul, hnil, hshort⟩, hdown, above, habove, hname, rfl⟩
    rw [hnul, if_neg Bool.false_ne_true, if_neg hnil, hshort, if_neg Bool.false_ne_true, habove]
    have hlast : (names path.toList).getLastD ['.'] = lastName path := rfl
    dsimp only
    rw [hlast, if_neg (not_or.mpr hdown), hname, if_neg Bool.false_ne_true]

/-- A path that leads somewhere leads there in a tree that has more in it. -/
theorem resolve_of_keeps (hk : fs.root.Keeps fs'.root fun _ => True)
    (hcurrent : fs'.current = fs.current) (h : fs.resolve follow path = .ok l) :
    fs'.resolve follow path = .ok l := by
  rw [resolve_eq_ok_iff] at h ⊢
  rw [hcurrent]
  exact ⟨h.1, go_of_keeps hk h.2⟩

theorem place_of_keeps (hk : fs.root.Keeps fs'.root fun _ => True)
    (hcurrent : fs'.current = fs.current) (h : fs.place path = .ok l) :
    fs'.place path = .ok l := by
  rw [place_eq_ok_iff] at h ⊢
  obtain ⟨hpath, hdown, above, habove, hname⟩ := h
  rw [hcurrent]
  exact ⟨hpath, hdown, above, go_of_keeps hk habove, hname⟩

/-- **Something stands where a path leads.** -/
theorem isSome_of_resolve (h : fs.resolve follow path = .ok l) : (fs.root.get? l).isSome := by
  obtain ⟨hpath, h⟩ := resolve_eq_ok_iff.mp h
  exact isSome_of_go (fun hnil => absurd hnil (steps_ne_nil hpath.ne_nil)) h

/-- Following links makes no difference where a path leads to no link. -/
theorem resolve_true_of_false (h : fs.resolve false path = .ok l)
    (hlink : ∀ t, fs.root.get? l ≠ some (.link t)) : fs.resolve true path = .ok l := by
  rw [resolve_eq_ok_iff] at h ⊢
  exact ⟨h.1, go_true_of_false h.2 hlink⟩

/-! ### The place of the last name -/

/-- The place of the last name is in a directory, which all steps before it lead to. -/
theorem exists_above (h : fs.place path = .ok l) :
    ∃ above k, l = above ++ [lastName path] ∧ fs.root.bare? above = some .empty ∧
      nameTooLong above (lastName path) = false ∧
      ∀ follow qs, qs ≠ [] →
        go fs.root follow maxLinks (origin fs.current path.toList)
          ((names path.toList).dropLast ++ qs) = go fs.root follow k above qs := by
  obtain ⟨-, -, above, habove, hname, rfl⟩ := place_eq_ok_iff.mp h
  rcases go_factors fs.root maxLinks (origin fs.current path.toList)
    (names path.toList).dropLast with ⟨e, he⟩ | ⟨d, k, hd⟩
  · rw [he true _ (List.cons_ne_nil _ _)] at habove
    exact nomatch habove
  · rw [hd true _ (List.cons_ne_nil _ _), go_dot_iff] at habove
    obtain ⟨hdir, rfl⟩ := habove
    exact ⟨above, k, rfl, hdir, hname, hd⟩

theorem lastName_mem_of_place (h : fs.place path = .ok l) : lastName path ∈ l := by
  obtain ⟨-, -, above, -, -, rfl⟩ := place_eq_ok_iff.mp h
  simp

/-- A path leads to the place of its last name, if something stands there. -/
theorem resolve_of_place (h : fs.place path = .ok l) (hslash : endsInSlash path.toList = false)
    (hsome : (fs.root.get? l).isSome) : fs.resolve false path = .ok l := by
  obtain ⟨hpath, hdown, -⟩ := place_eq_ok_iff.mp h
  obtain ⟨above, k, rfl, hdir, hname, hgo⟩ := exists_above h
  rw [resolve_eq_ok_iff, steps, hslash, if_neg Bool.false_ne_true, names_eq hdown,
    hgo false _ (List.cons_ne_nil _ _)]
  exact ⟨hpath, (go_name_iff hdown).mpr ⟨hdir, hname, rfl, hsome⟩⟩

/-- A path that leads somewhere leads to the place of its last name. -/
theorem place_of_resolve (h : fs.resolve false path = .ok r)
    (hslash : endsInSlash path.toList = false) (hdown : IsDown (lastName path)) :
    fs.place path = .ok r := by
  obtain ⟨hpath, h⟩ := resolve_eq_ok_iff.mp h
  rw [steps, hslash, if_neg Bool.false_ne_true, names_eq hdown] at h
  rcases go_factors fs.root maxLinks (origin fs.current path.toList)
    (names path.toList).dropLast with ⟨e, he⟩ | ⟨above, k, hgo⟩
  · rw [he false _ (List.cons_ne_nil _ _)] at h
    exact nomatch h
  · rw [hgo false _ (List.cons_ne_nil _ _)] at h
    obtain ⟨hdir, hname, rfl, -⟩ := (go_name_iff hdown).mp h
    refine place_eq_ok_iff.mpr ⟨hpath, hdown, above, ?_, hname, rfl⟩
    rw [hgo true _ (List.cons_ne_nil _ _), go_dot_iff]
    exact ⟨hdir, rfl⟩

/-- A path that ends in a name, and this one is no step in place or upwards. -/
structure EndsInName (path : String) : Prop where
  slash : endsInSlash path.toList = false
  down : IsDown (lastName path)

/-- The last name of a path is in the location that the path leads to. -/
theorem EndsInName.mem (h : EndsInName path) (hr : fs.resolve false path = .ok r) :
    lastName path ∈ r :=
  lastName_mem_of_place (place_of_resolve hr h.slash h.down)

theorem EndsInName.ne_nil (h : EndsInName path) : fs.resolve false path ≠ .ok [] :=
  fun hr => List.not_mem_nil (h.mem hr)

/-- Slashes behind the last name change nothing but for a link, which they follow. -/
theorem resolve_eq_place_or_link (h : fs.resolve false path = .ok r)
    (hplace : fs.place path = .ok m) :
    r = m ∨ ∃ target, fs.root.get? m = some (.link target) := by
  obtain ⟨-, hdown, -⟩ := place_eq_ok_iff.mp hplace
  obtain ⟨above, k, rfl, hdir, hname, hgo⟩ := exists_above hplace
  obtain ⟨-, h⟩ := resolve_eq_ok_iff.mp h
  rw [steps] at h
  split at h
  · next hslash =>
    rw [names_eq hdown, List.append_assoc, hgo false _ (by simp), List.singleton_append] at h
    rcases go_cons_eq_ok h with ⟨l, ht, h⟩ | ⟨target, ht, -⟩ | ⟨target, j, ht, -⟩
    · obtain ⟨-, rfl⟩ := go_dot_iff.mp h
      obtain ⟨-, ⟨hdot, -⟩ | ⟨hdots, -⟩ | ⟨-, -, y, -, hl⟩⟩ := turn_eq_ok_iff.mp ht
      · exact absurd hdot hdown.1
      · exact absurd hdots hdown.2
      · cases y <;> cases hl <;> exact Or.inl rfl
    · exact Or.inr ⟨target, (turn_link ht).2⟩
    · exact Or.inr ⟨target, (turn_link ht).2⟩
  · rw [names_eq hdown, hgo false _ (by simp)] at h
    exact Or.inl ((go_name_iff hdown).mp h).2.2.1

end FileSystem
end LintGate
