import LintGate.Proofs.Machine.Place

/-!
# What a change of the files leaves as it is

Each operation changes what stands at or below the locations that its paths name, and nothing
else.

## Main definitions

* `FileSystem.Keeps` — files that keep what stands at the locations of a kind.
* `FileSystem.Names` — the locations that a path names.
* `FileSystem.Avoids` — a path that does not go through anything with one of some names.
* `FileSystem.Erases` — what a path leads to is erased.
* `FileSystem.Creates`, `FileSystem.Adds` — something new is put in the place of a last name.
* `FileSystem.Moves` — what stands in one place is moved to another.

## Main results

* `keeps_of_makeDirs`, `keeps_of_write`, `erases_of_removeFile`, `erases_of_removeTree`,
  `moves_of_rename` — what the operations do.
* `Erases.resolve_ne` — what was erased is not found any more.
* `Creates.resolve` — what was created is found.
* `Moves.get?` — what was moved is found whole.
* `isFile_of_avoids` — a file that nothing was changed of is still there.
-/

namespace LintGate
namespace FileSystem

open Node

variable {fs fs' fs'' : FileSystem} {path : String} {l m r : Location} {x : Node}

/-- What stands in some files at the locations of a kind stands there in others, and the current
directory is the same. -/
structure Keeps (fs fs' : FileSystem) (kind : Location → Prop) : Prop where
  root : fs.root.Keeps fs'.root kind
  current : fs'.current = fs.current

namespace Keeps

variable {kind kind' : Location → Prop}

theorem refl (fs : FileSystem) (kind : Location → Prop) : fs.Keeps fs kind :=
  ⟨.refl fs.root kind, rfl⟩

theorem trans (h : fs.Keeps fs' kind) (h' : fs'.Keeps fs'' kind) : fs.Keeps fs'' kind :=
  ⟨h.root.trans h'.root, h'.current.trans h.current⟩

theorem mono (h : fs.Keeps fs' kind) (hkind : ∀ l, kind' l → kind l) : fs.Keeps fs' kind' :=
  ⟨h.root.mono hkind, h.current⟩

theorem resolve {follow : Bool} (h : fs.Keeps fs' fun _ => True)
    (hl : fs.resolve follow path = .ok l) : fs'.resolve follow path = .ok l :=
  resolve_of_keeps h.root h.current hl

theorem place (h : fs.Keeps fs' fun _ => True) (hl : fs.place path = .ok l) :
    fs'.place path = .ok l :=
  place_of_keeps h.root h.current hl

end Keeps

/-- The locations that a path names: where it leads, if a link at its end is not followed, and
the place of its last name. -/
def Names (fs : FileSystem) (path : String) (l : Location) : Prop :=
  fs.resolve false path = .ok l ∨ fs.place path = .ok l

theorem Names.of_keeps (h : fs.Keeps fs' fun _ => True) (hl : fs.Names path l) :
    fs'.Names path l :=
  hl.imp h.resolve h.place

/-- The last name of a path is in the locations that the path names. -/
theorem Names.mem (h : fs.Names path l) (hname : EndsInName path) : lastName path ∈ l :=
  h.elim hname.mem lastName_mem_of_place

/-! ### Plain files -/

theorem isFile_iff : fs.isFile path = true ↔
    ∃ l content executable, fs.resolve true path = .ok l ∧
      fs.root.get? l = some (.file content executable) := by
  unfold isFile node
  cases hr : fs.resolve true path with
  | error e => simp
  | ok l =>
    cases hx : fs.root.get? l with
    | none => simp [hx]
    | some x =>
      cases x with
      | file content executable =>
        exact iff_of_true (by simp [hx]) ⟨l, content, executable, rfl, hx⟩
      | link | dir => simp [hx]

/-- A path that does not go through anything with one of some names. -/
structure Avoids (fs : FileSystem) (path : String) (ns : List (List Char)) : Prop where
  steps : ∀ n ∈ steps path.toList, n ∉ ns
  current : ∀ n ∈ fs.current, n ∉ ns
  links : ∀ l target, (∀ n ∈ l, n ∉ ns) → fs.root.get? l = some (.link target) →
    ∀ n ∈ FileSystem.steps target, n ∉ ns

/-- A plain file is still one if nothing was changed but what the path does not go through. -/
theorem isFile_of_avoids {ns : List (List Char)} (h : fs.Keeps fs' fun l => ∀ n ∈ l, n ∉ ns)
    (havoids : fs'.Avoids path ns) (hfile : fs.isFile path = true) : fs'.isFile path = true := by
  obtain ⟨l, content, executable, hl, hget⟩ := isFile_iff.mp hfile
  obtain ⟨hpath, hgo⟩ := resolve_eq_ok_iff.mp hl
  have hcurrent : ∀ n ∈ fs.current, n ∉ ns := by
    rw [← h.current]
    exact havoids.current
  obtain ⟨hgo', hnames⟩ := go_mono h.root
    (fun k target hk hlink => havoids.links k target hk
      ((bare?_eq_some_iff rfl).mp (h.root k _ hk ((bare?_eq_some_iff rfl).mpr hlink))))
    (forall_mem_origin hcurrent path.toList) havoids.steps hgo
  refine isFile_iff.mpr ⟨l, content, executable, resolve_eq_ok_iff.mpr ⟨hpath, ?_⟩, ?_⟩
  · rw [h.current]
    exact hgo'
  · exact (bare?_eq_some_iff rfl).mp (h.root l _ hnames ((bare?_eq_some_iff rfl).mpr hget))

/-! ### Making directories and files -/

theorem dir_of_go_missing {root : Node} {links : ℕ} {here : Location} {step : List Char}
    (h : go root true links here [step] = .error .missing) : root.bare? here = some .empty := by
  rw [go_cons] at h
  cases ht : turn root here step with
  | ok t => exact (turn_eq_ok_iff.mp ht).1
  | error e =>
    rw [ht] at h
    cases h
    unfold turn at ht
    split at ht
    · next es hes => exact bare?_eq_empty_iff.mpr ⟨es, hes⟩
    · exact nomatch ht

theorem keeps_of_makeFrom {root root' : Node} {links : ℕ} {here ps : Location}
    (h : makeFrom root links here ps = .ok root') : root.Keeps root' fun _ => True := by
  induction ps generalizing root here with
  | nil =>
    cases h
    exact .refl _ _
  | cons step ps ih =>
    rw [makeFrom] at h
    split at h
    · split at h
      · exact ih h
      · exact nomatch h
    · next hmissing =>
      split at h
      · exact nomatch h
      · next hnone =>
        obtain ⟨es, hes⟩ := bare?_eq_empty_iff.mp (dir_of_go_missing hmissing)
        exact (Node.Keeps.put_of_none hes (by simpa using hnone) _).trans (ih h)
    · exact nomatch h

/-- Making directories leaves everything as it is. -/
theorem keeps_of_makeDirs (h : fs.makeDirs path = .ok fs') : fs.Keeps fs' fun _ => True := by
  unfold makeDirs at h
  dsimp only at h
  split at h
  · exact nomatch h
  · split at h
    · exact nomatch h
    · cases hroot : makeFrom fs.root maxLinks (origin fs.current path.toList)
        (steps path.toList) with
      | error e =>
        rw [hroot] at h
        exact nomatch h
      | ok root =>
        rw [hroot] at h
        cases h
        exact ⟨keeps_of_makeFrom hroot, rfl⟩

/-- Writing to a file changes only this file. -/
theorem keeps_of_write {content : Bytes} {executable : Bool}
    (h : fs.write path content executable = .ok fs') (hl : fs.resolve true path = .ok l) :
    fs.Keeps fs' fun l' => l' ≠ l := by
  obtain ⟨y, hy⟩ := Option.isSome_iff_exists.mp (isSome_of_resolve hl)
  simp only [write, hl, hy] at h
  cases y with
  | dir es => exact nomatch h
  | file c e =>
    cases h
    exact ⟨.put_of_not_dir hy rfl _, rfl⟩
  | link target =>
    cases h
    exact ⟨.put_of_not_dir hy rfl _, rfl⟩

/-- Something new is put in the place of the last name of a path. -/
structure Creates (fs : FileSystem) (path : String) (x : Node) (fs' : FileSystem) : Prop where
  intro ::
  exists_place : ∃ l, fs.place path = .ok l ∧ fs.root.get? l = none ∧
    fs' = { fs with root := fs.root.put l x }

/-- What is created leaves everything as it is. -/
theorem Creates.keeps (h : fs.Creates path x fs') : fs.Keeps fs' fun _ => True := by
  obtain ⟨l, hl, hnone, rfl⟩ := h
  obtain ⟨above, -, rfl, hdir, -⟩ := exists_above hl
  obtain ⟨es, hes⟩ := bare?_eq_empty_iff.mp hdir
  exact ⟨.put_of_none hes hnone x, rfl⟩

/-- What was created is found. -/
theorem Creates.resolve (h : fs.Creates path x fs') (hslash : endsInSlash path.toList = false)
    (hx : ∀ t, x ≠ .link t) (hl : fs.place path = .ok l) : fs'.resolve true path = .ok l := by
  have hkeeps := h.keeps
  obtain ⟨l', hl', -, rfl⟩ := h
  rw [hl, Except.ok.injEq] at hl'
  subst hl'
  have hget : (fs.root.put l x).get? l = some x := get?_put x l fs.root
  refine resolve_true_of_false ?_ fun t => ?_
  · exact resolve_of_place (hkeeps.place hl) hslash (by rw [hget]; rfl)
  · rw [hget, Ne, Option.some_inj]
    exact hx t

/-- Something new is found at a path that ends in a name, and nothing else was changed. -/
structure Adds (fs : FileSystem) (path : String) (l : Location) (fs' : FileSystem) : Prop where
  name : EndsInName path
  keeps : fs.Keeps fs' fun _ => True
  place : fs.place path = .ok l
  free : fs.root.get? l = none
  found : fs'.resolve true path = .ok l

/-- What was there before is not below what is new. -/
theorem Adds.not_prefix (h : fs.Adds path l fs') {k : Location} (hk : (fs.root.get? k).isSome) :
    ¬ l <+: k := by
  intro hbelow
  rw [get?_eq_none_below h.free hbelow] at hk
  exact nomatch hk

/-! ### What is in a file -/

theorem read_eq_ok_iff {content : Bytes} : fs.read path = .ok content ↔
    ∃ l executable, fs.resolve true path = .ok l ∧
      fs.root.get? l = some (.file content executable) := by
  unfold read node
  cases hr : fs.resolve true path with
  | error e => simp
  | ok l =>
    cases hget : fs.root.get? l with
    | none => simp [hget]
    | some y =>
      cases y with
      | file c e => cases e <;> simp [hget]
      | link | dir => simp [hget]

/-- What is in a file is still in it as long as everything is kept. -/
theorem Keeps.read {content : Bytes} (h : fs.Keeps fs' fun _ => True)
    (hr : fs.read path = .ok content) : fs'.read path = .ok content := by
  obtain ⟨l, executable, hl, hget⟩ := read_eq_ok_iff.mp hr
  refine read_eq_ok_iff.mpr ⟨l, executable, h.resolve hl, ?_⟩
  rw [← bare?_eq_some_iff rfl] at hget ⊢
  exact h.root l _ trivial hget

/-- What is written to something new is in it. -/
theorem Adds.read_of_write {content : Bytes} {fs'' : FileSystem} (h : fs.Adds path l fs')
    (hw : fs'.write path content false = .ok fs'') : fs''.read path = .ok content := by
  -- Nothing was there at first, so everything is kept from then on.
  have hkeeps : fs.Keeps fs'' fun _ => True := by
    have hwrite := keeps_of_write hw h.found
    refine ⟨fun k a _ ha => hwrite.root k a ?_ (h.keeps.root k a trivial ha),
      hwrite.current.trans h.keeps.current⟩
    rintro rfl
    rw [bare?, h.free] at ha
    cases ha
  have hget : fs''.root.get? l = some (.file content false) := by
    obtain ⟨y, hy⟩ := Option.isSome_iff_exists.mp (isSome_of_resolve h.found)
    simp only [write, h.found, hy] at hw
    cases y with
    | dir es => cases hw
    | file c e =>
      cases hw
      exact get?_put _ l fs'.root
    | link target =>
      cases hw
      exact get?_put _ l fs'.root
  refine read_eq_ok_iff.mpr ⟨l, false, resolve_true_of_false ?_ fun t => ?_, hget⟩
  · exact resolve_of_place (hkeeps.place h.place) h.name.slash (by rw [hget]; rfl)
  · simp [hget]

/-! ### Removing -/

/-- What a path leads to is erased. -/
structure Erases (fs : FileSystem) (path : String) (fs' : FileSystem) : Prop where
  intro ::
  exists_location : ∃ l, fs.resolve false path = .ok l ∧
    fs' = { fs with root := fs.root.erase l }

theorem erases_of_removeFile (h : fs.removeFile path = .ok fs') : fs.Erases path fs' := by
  unfold removeFile at h
  split at h
  · exact nomatch h
  · next l hl =>
    split at h
    · exact nomatch h
    · cases h
      exact ⟨l, hl, rfl⟩

theorem erases_of_removeTree (h : fs.removeTree path = .ok fs') : fs.Erases path fs' := by
  unfold removeTree at h
  split at h
  · exact nomatch h
  · next l hl =>
    split at h
    · exact nomatch h
    · cases h
      exact ⟨l, hl, rfl⟩

namespace Erases

/-- What is erased leaves everything as it is that the path does not lead to. -/
theorem keeps (h : fs.Erases path fs') :
    fs.Keeps fs' fun l => ∀ r, fs.resolve false path = .ok r → ¬ r <+: l := by
  obtain ⟨r, hr, rfl⟩ := h
  exact ⟨(Node.Keeps.erase fs.root r).mono fun _ hl => hl r hr, rfl⟩

/-- Erasing something below the root adds nothing. -/
theorem keeps_back (h : fs.Erases path fs') (hr : fs.resolve false path ≠ .ok []) :
    fs'.Keeps fs fun _ => True := by
  obtain ⟨r, hresolve, rfl⟩ := h
  exact ⟨.of_erase (fun hnil => hr (hnil ▸ hresolve)) fs.root, rfl⟩

/-- What stands after something was erased is not below it. -/
theorem not_prefix (h : fs.Erases path fs') (hr : fs.resolve false path = .ok r) (hne : r ≠ [])
    (hl : (fs'.root.get? l).isSome) : ¬ r <+: l := by
  intro hbelow
  obtain ⟨r', hr', rfl⟩ := h
  rw [hr, Except.ok.injEq] at hr'
  subst hr'
  rw [get?_erase hbelow fun hnil => hne (List.prefix_nil.mp (hnil ▸ hbelow))] at hl
  exact nomatch hl

/-- **What was erased is not found any more.** -/
theorem resolve_ne (h : fs.Erases path fs') (hr : fs.resolve false path ≠ .ok []) (l : Location) :
    fs'.resolve false path ≠ .ok l := by
  intro hl
  -- What is found now was found before, so it is what was erased.
  have hbefore := (h.keeps_back hr).resolve hl
  exact h.not_prefix hbefore (fun hnil => hr (hnil ▸ hbefore)) (isSome_of_resolve hl)
    (List.prefix_refl l)

end Erases

/-! ### Moving -/

/-- What stands in one place is moved to another, or it is in its place already. -/
structure Moves (fs : FileSystem) (source target : String) (x : Node) (fs' : FileSystem) :
    Prop where
  intro ::
  exists_places : ∃ l m, fs.place source = .ok l ∧ fs.place target = .ok m ∧
    fs.root.get? l = some x ∧ (l = m ∧ fs' = fs ∨ ¬ l <+: m ∧ ¬ m <+: l ∧
      fs' = { fs with root := (fs.root.erase l).put m x })

/-- What a move does.  A directory does not take the place of a link. -/
theorem moves_of_rename {source target : String} (h : fs.rename source target = .ok fs') :
    ∃ x, fs.Moves source target x fs' ∧ (x.isDir = true →
      ∀ m t, fs.place target = .ok m → fs.root.get? m ≠ some (.link t)) := by
  unfold rename at h
  split at h
  · exact nomatch h
  · exact nomatch h
  · next l m hl hm =>
    split at h
    · exact nomatch h
    · next x hx =>
      split at h
      · exact nomatch h
      · split at h
        · next he =>
          cases h
          refine ⟨x, ⟨l, m, hl, hm, hx, Or.inl ⟨he, rfl⟩⟩, fun hdir m' t hm' hlink => ?_⟩
          rw [hm, Except.ok.injEq] at hm'
          rw [← hm', ← he, hx, Option.some_inj] at hlink
          rw [hlink] at hdir
          exact nomatch hdir
        · split at h
          · exact nomatch h
          · next hlm =>
            split at h
            · exact nomatch h
            · next hml =>
              split at h
              · exact nomatch h
              · next hmay =>
                cases h
                rw [List.isPrefixOf_iff_prefix] at hlm hml
                refine ⟨x, ⟨l, m, hl, hm, hx, Or.inr ⟨hlm, hml, rfl⟩⟩,
                  fun hdir m' t hm' hlink => ?_⟩
                rw [hm, Except.ok.injEq] at hm'
                rw [hm', hlink] at hmay
                cases x with
                | dir es => exact nomatch hmay
                | file c e => exact nomatch hdir
                | link t => exact nomatch hdir

namespace Moves

variable {source target : String}

/-- **What was moved is found whole** in its new place. -/
theorem get? (h : fs.Moves source target x fs') (hm : fs.place target = .ok m) :
    fs'.root.get? m = some x := by
  obtain ⟨l, m', -, hm', hx, ⟨rfl, rfl⟩ | ⟨-, -, rfl⟩⟩ := h
  · rw [hm, Except.ok.injEq] at hm'
    rw [hm', hx]
  · rw [hm, Except.ok.injEq] at hm'
    rw [hm']
    exact get?_put x m' _

/-- Everything else stays as it is. -/
theorem keeps (h : fs.Moves source target x fs') :
    fs.Keeps fs' fun k => ∀ l, fs.Names source l ∨ fs.Names target l → ¬ l <+: k := by
  obtain ⟨l, m, hl, hm, hx, ⟨-, rfl⟩ | ⟨hlm, hml, rfl⟩⟩ := h
  · exact .refl _ _
  · refine ⟨fun k a hk ha => ?_, rfl⟩
    have hnl : ¬ l <+: k := hk l (Or.inl (Or.inr hl))
    have hnm : ¬ m <+: k := hk m (Or.inr (Or.inr hm))
    obtain ⟨above, -, rfl, hdir, -⟩ := exists_above hm
    -- The directory of the new place is not below the old one.
    have habove : (fs.root.erase l).bare? above = some .empty := by
      rw [bare?_erase (fun hp => hlm (hp.trans (List.prefix_append _ _))), hdir]
    obtain ⟨es, hes⟩ := bare?_eq_empty_iff.mp habove
    rw [bare?_put hes hnm, bare?_erase hnl, ha]

end Moves

end FileSystem
end LintGate
