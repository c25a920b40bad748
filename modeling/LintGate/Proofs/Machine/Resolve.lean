import LintGate.Proofs.Machine.Node

/-!
# Where paths lead

A path is gone through step by step, and each step looks at two locations only: the directory it
starts from and what it leads to.  So a path that leads somewhere leads there in every tree that
has the same standing at the locations it goes through.

## Main definitions

* `FileSystem.Turn.onto` — where a step to a node leads.
* `FileSystem.IsDown` — the names that are no step in place or upwards.

## Main results

* `go_mono` — **steps lead to the same location in another tree** that keeps what they meet.
* `isSome_of_go` — something stands where steps lead.
* `go_factors` — a first part of the steps does not depend on what comes behind.
-/

namespace LintGate
namespace FileSystem

open Node

variable {root A B : Node} {follow : Bool} {links : ℕ} {here l r d : Location}
  {step n : List Char} {ps rest : Location}

/-! ### One step -/

/-- Where a step to a node leads. -/
def Turn.onto (l : Location) : Node → Turn
  | .link target => .link l target
  | _ => .place l

/-- A name that is no step in place or upwards. -/
def IsDown (step : List Char) : Prop := step ≠ ['.'] ∧ step ≠ ['.', '.']

/-- **What one step needs and where it leads.** -/
theorem turn_eq_ok_iff {t : Turn} :
    turn root here step = .ok t ↔
      root.bare? here = some .empty ∧
        (step = ['.'] ∧ t = .place here ∨ step = ['.', '.'] ∧ t = .place here.dropLast ∨
          IsDown step ∧ nameTooLong here step = false ∧
            ∃ y, root.bare? (here ++ [step]) = some y ∧ t = .onto (here ++ [step]) y) := by
  rw [bare?_eq_empty_iff]
  unfold turn
  split
  · next es hes =>
    rw [iff_true_intro (Exists.intro es hes : ∃ es, root.get? here = some (.dir es)), true_and]
    split
    · next hdot =>
      subst hdot
      constructor
      · rintro ⟨⟩
        exact Or.inl ⟨rfl, rfl⟩
      · rintro (⟨-, rfl⟩ | ⟨h, -⟩ | ⟨h, -⟩)
        · rfl
        · exact absurd h (by decide)
        · exact absurd rfl h.1
    · next hdot =>
      rw [iff_false_intro hdot, false_and, false_or]
      split
      · next hdots =>
        subst hdots
        constructor
        · rintro ⟨⟩
          exact Or.inl ⟨rfl, rfl⟩
        · rintro (⟨-, rfl⟩ | ⟨h, -⟩)
          · rfl
          · exact absurd rfl h.2
      · next hdots =>
        have hdown : IsDown step := ⟨hdot, hdots⟩
        rw [iff_false_intro hdots, false_and, false_or, iff_true_intro hdown, true_and, bare?,
          get?_concat hes]
        split
        · next hlong => simp [hlong]
        · next hlong =>
          rw [Bool.not_eq_true] at hlong
          rw [hlong]
          cases find? step es with
          | none => simp
          | some y => cases y <;> simp [Turn.onto, bare, empty, eq_comm]
  · next hes =>
    constructor
    · rintro ⟨⟩
    · rintro ⟨⟨es, h⟩, -⟩
      exact absurd h (hes es)

theorem forall_mem_concat {P : List Char → Prop} (hhere : ∀ n ∈ here, P n) (hstep : P step) :
    ∀ n ∈ here ++ [step], P n :=
  List.forall_mem_append.mpr ⟨hhere, List.forall_mem_singleton.mpr hstep⟩

/-- A step leads to the same location in a tree that keeps what it meets. -/
theorem turn_mono {kind : Location → Prop} (hk : A.Keeps B kind) (hhere : kind here)
    (hstep : kind (here ++ [step])) {t : Turn} (h : turn A here step = .ok t) :
    turn B here step = .ok t := by
  rw [turn_eq_ok_iff] at h ⊢
  obtain ⟨hdir, hdot | hdots | ⟨hdown, hlong, y, hy, ht⟩⟩ := h
  · exact ⟨hk _ _ hhere hdir, Or.inl hdot⟩
  · exact ⟨hk _ _ hhere hdir, Or.inr (Or.inl hdots)⟩
  · exact ⟨hk _ _ hhere hdir, Or.inr (Or.inr ⟨hdown, hlong, y, hk _ _ hstep hy, ht⟩)⟩

/-- A step leads to the directory it starts from, to one above it, or to what has its name. -/
theorem mem_of_turn_place {P : List Char → Prop} (hhere : ∀ n ∈ here, P n) (hstep : P step)
    (h : turn root here step = .ok (.place l)) : ∀ n ∈ l, P n := by
  obtain ⟨-, ⟨-, ht⟩ | ⟨-, ht⟩ | ⟨-, -, y, -, ht⟩⟩ := turn_eq_ok_iff.mp h
  · cases ht
    exact hhere
  · cases ht
    exact fun n hn => hhere n (List.mem_of_mem_dropLast hn)
  · cases y with
    | link target => exact nomatch ht
    | _ =>
      cases ht
      exact forall_mem_concat hhere hstep

theorem turn_link {target : List Char} (h : turn root here step = .ok (.link l target)) :
    l = here ++ [step] ∧ root.get? l = some (.link target) := by
  obtain ⟨-, ⟨-, ht⟩ | ⟨-, ht⟩ | ⟨-, -, y, hy, ht⟩⟩ := turn_eq_ok_iff.mp h
  · exact nomatch ht
  · exact nomatch ht
  · cases y with
    | link t =>
      cases ht
      exact ⟨rfl, (bare?_eq_some_iff rfl).mp hy⟩
    | _ => exact nomatch ht

theorem isSome_of_turn (h : turn root here step = .ok (.place l)) : (root.get? l).isSome := by
  obtain ⟨hdir, ⟨-, ht⟩ | ⟨-, ht⟩ | ⟨-, -, y, hy, ht⟩⟩ := turn_eq_ok_iff.mp h
  · cases ht
    rw [← isSome_bare?_iff, hdir]
    rfl
  · cases ht
    -- The directory above one is there, too.
    obtain ⟨es, hes⟩ := bare?_eq_empty_iff.mp hdir
    rcases List.eq_nil_or_concat here with rfl | ⟨above, n, rfl⟩
    · simp
    · rw [List.concat_eq_append] at hes ⊢
      obtain ⟨fs, hfs⟩ := exists_dir_of_isSome (by rw [hes]; rfl)
      rw [List.dropLast_concat, hfs]
      rfl
  · cases y with
    | link target => exact nomatch ht
    | _ =>
      cases ht
      rw [← isSome_bare?_iff, hy]
      rfl

/-! ### Many steps -/

@[simp] theorem go_nil : go root follow links here [] = .ok here := by
  cases links <;> rfl

theorem go_cons :
    go root follow links here (step :: rest) =
      match turn root here step with
      | .error e => .error e
      | .ok (.place l) => go root follow links l rest
      | .ok (.link l target) =>
        if rest = [] ∧ !follow then .ok l
        else
          match links with
          | 0 => .error .tooManyLinks
          | k + 1 => go root follow k (origin here target) (steps target ++ rest) := by
  cases links <;> rfl

/-- What one step leaves to do: steps from the next location, the end, or the steps of a link. -/
theorem go_cons_eq_ok (h : go root follow links here (step :: rest) = .ok r) :
    (∃ l, turn root here step = .ok (.place l) ∧ go root follow links l rest = .ok r) ∨
    (∃ target, turn root here step = .ok (.link (here ++ [step]) target) ∧
      rest = [] ∧ follow = false ∧ r = here ++ [step]) ∨
    ∃ target k, turn root here step = .ok (.link (here ++ [step]) target) ∧
      ¬ (rest = [] ∧ !follow) ∧ links = k + 1 ∧
      go root follow k (origin here target) (steps target ++ rest) = .ok r := by
  rw [go_cons] at h
  cases ht : turn root here step with
  | error e =>
    rw [ht] at h
    exact nomatch h
  | ok t =>
    rw [ht] at h
    cases t with
    | place l => exact Or.inl ⟨l, rfl, h⟩
    | link l target =>
      obtain ⟨rfl, -⟩ := turn_link ht
      dsimp only at h
      split at h
      · next hlast =>
        cases h
        exact Or.inr (Or.inl ⟨target, rfl, hlast.1, by simpa using hlast.2, rfl⟩)
      · next hlast =>
        cases links with
        | zero => exact nomatch h
        | succ k => exact Or.inr (Or.inr ⟨target, k, rfl, hlast, rfl, h⟩)

theorem forall_mem_origin {P : List Char → Prop} (hhere : ∀ n ∈ here, P n) (target : List Char) :
    ∀ n ∈ origin here target, P n := by
  unfold origin
  split
  · exact fun n hn => absurd hn List.not_mem_nil
  · exact hhere

/-- **Steps lead to the same location in another tree** that keeps what stands at the locations
whose names are of some kind, if all the names that are met are of this kind. -/
theorem go_mono {P : List Char → Prop} (hk : A.Keeps B fun l => ∀ n ∈ l, P n)
    (hlinks : ∀ l t, (∀ n ∈ l, P n) → A.get? l = some (.link t) → ∀ n ∈ steps t, P n)
    (hhere : ∀ n ∈ here, P n) (hps : ∀ n ∈ ps, P n) (h : go A follow links here ps = .ok r) :
    go B follow links here ps = .ok r ∧ ∀ n ∈ r, P n := by
  induction links using Nat.strong_induction_on generalizing here ps with
  | _ links ihLinks =>
    induction ps generalizing here with
    | nil =>
      rw [go_nil, Except.ok.injEq] at h
      subst h
      exact ⟨go_nil, hhere⟩
    | cons step ps ih =>
      obtain ⟨hstep, hps⟩ := List.forall_mem_cons.mp hps
      have hnext := forall_mem_concat hhere hstep
      rw [go_cons]
      rcases go_cons_eq_ok h with ⟨l, ht, h⟩ | ⟨target, ht, rfl, rfl, rfl⟩ |
        ⟨target, k, ht, hlast, rfl, hgo⟩
      · rw [turn_mono hk hhere hnext ht]
        exact ih (mem_of_turn_place hhere hstep ht) hps h
      · rw [turn_mono hk hhere hnext ht]
        exact ⟨rfl, hnext⟩
      · rw [turn_mono hk hhere hnext ht]
        dsimp only
        rw [if_neg hlast]
        refine ihLinks k k.lt_succ_self (forall_mem_origin hhere target) ?_ hgo
        exact List.forall_mem_append.mpr ⟨hlinks _ target hnext (turn_link ht).2, hps⟩

/-- Steps that lead somewhere lead there in every tree that keeps all that stands in this one. -/
theorem go_of_keeps (hk : A.Keeps B fun _ => True) (h : go A follow links here ps = .ok r) :
    go B follow links here ps = .ok r :=
  (go_mono (hk.mono fun _ _ => trivial) (fun _ _ _ _ _ _ => trivial) (fun _ _ => trivial)
    (fun _ _ => trivial) h).1

/-- **Something stands where steps lead.** -/
theorem isSome_of_go (hhere : ps = [] → (root.get? here).isSome)
    (h : go root follow links here ps = .ok r) : (root.get? r).isSome := by
  induction links using Nat.strong_induction_on generalizing here ps with
  | _ links ihLinks =>
    induction ps generalizing here with
    | nil =>
      rw [go_nil, Except.ok.injEq] at h
      subst h
      exact hhere rfl
    | cons step ps ih =>
      rcases go_cons_eq_ok h with ⟨l, ht, h⟩ | ⟨target, ht, rfl, rfl, rfl⟩ |
        ⟨target, k, ht, hlast, rfl, hgo⟩
      · exact ih (fun _ => isSome_of_turn ht) h
      · rw [(turn_link ht).2]
        rfl
      · refine ihLinks k k.lt_succ_self (fun _ => ?_) hgo
        unfold origin
        split
        · simp
        · rw [← isSome_bare?_iff, (turn_eq_ok_iff.mp ht).1]
          rfl

/-- Following links makes no difference where there is none at the end. -/
theorem go_true_of_false (h : go root false links here ps = .ok r)
    (hlink : ∀ t, root.get? r ≠ some (.link t)) : go root true links here ps = .ok r := by
  induction links using Nat.strong_induction_on generalizing here ps with
  | _ links ihLinks =>
    induction ps generalizing here with
    | nil => rwa [go_nil] at h ⊢
    | cons step ps ih =>
      rw [go_cons]
      rcases go_cons_eq_ok h with ⟨l, ht, h⟩ | ⟨target, ht, rfl, -, rfl⟩ |
        ⟨target, k, ht, -, rfl, hgo⟩
      · rw [ht]
        exact ih h
      · exact absurd (turn_link ht).2 (hlink target)
      · rw [ht]
        dsimp only
        rw [if_neg (by simp)]
        exact ihLinks k k.lt_succ_self hgo

/-- **A first part of the steps does not depend on what comes behind**: it fails, or it leads to
a location from which it goes on. -/
theorem go_factors (root : Node) (links : ℕ) (here ps : Location) :
    (∃ e, ∀ follow qs, qs ≠ [] → go root follow links here (ps ++ qs) = .error e) ∨
      ∃ d k, ∀ follow qs, qs ≠ [] →
        go root follow links here (ps ++ qs) = go root follow k d qs := by
  induction links using Nat.strong_induction_on generalizing here ps with
  | _ links ihLinks =>
    induction ps generalizing here with
    | nil => exact Or.inr ⟨here, links, fun _ _ _ => rfl⟩
    | cons step ps ih =>
      simp only [List.cons_append, go_cons]
      cases turn root here step with
      | error e => exact Or.inl ⟨e, fun _ _ _ => rfl⟩
      | ok t =>
        cases t with
        | place l => exact ih l
        | link l target =>
          cases links with
          | zero => exact Or.inl ⟨.tooManyLinks, fun _ qs hqs => if_neg (by simp [hqs])⟩
          | succ k =>
            -- The rest of the steps stays behind those of the link.
            have hin (follow : Bool) (qs : Location) (hqs : qs ≠ []) :
                (if ps ++ qs = [] ∧ !follow then Except.ok l
                  else go root follow k (origin here target) (steps target ++ (ps ++ qs))) =
                go root follow k (origin here target) ((steps target ++ ps) ++ qs) := by
              rw [if_neg (by simp [hqs]), List.append_assoc]
            rcases ihLinks k k.lt_succ_self (origin here target) (steps target ++ ps) with
              ⟨e, h⟩ | ⟨d, j, h⟩
            · exact Or.inl ⟨e, fun follow qs hqs => (hin follow qs hqs).trans (h follow qs hqs)⟩
            · exact Or.inr ⟨d, j, fun follow qs hqs => (hin follow qs hqs).trans (h follow qs hqs)⟩

/-! ### The last steps -/

theorem turn_dot_iff {t : Turn} :
    turn root here ['.'] = .ok t ↔ root.bare? here = some .empty ∧ t = .place here := by
  rw [turn_eq_ok_iff]
  refine and_congr_right fun _ => ⟨?_, fun h => Or.inl ⟨rfl, h⟩⟩
  rintro (⟨-, ht⟩ | ⟨hdots, -⟩ | ⟨hdown, -⟩)
  · exact ht
  · exact absurd hdots (by decide)
  · exact absurd rfl hdown.1

/-- A dot at the end asks for a directory. -/
theorem go_dot_iff :
    go root follow links here [['.']] = .ok r ↔ root.bare? here = some .empty ∧ r = here := by
  constructor
  · intro h
    rcases go_cons_eq_ok h with ⟨l, ht, h⟩ | ⟨target, ht, -⟩ | ⟨target, k, ht, -⟩
    · obtain ⟨hdir, hl⟩ := turn_dot_iff.mp ht
      cases hl
      rw [go_nil, Except.ok.injEq] at h
      exact ⟨hdir, h.symm⟩
    · exact nomatch (turn_dot_iff.mp ht).2
    · exact nomatch (turn_dot_iff.mp ht).2
  · rintro ⟨hdir, rfl⟩
    rw [go_cons, turn_dot_iff.mpr ⟨hdir, rfl⟩]
    exact go_nil

/-- The last name is looked up in the directory that the other steps lead to. -/
theorem go_name_iff (hn : IsDown n) :
    go root false links here [n] = .ok r ↔
      root.bare? here = some .empty ∧ nameTooLong here n = false ∧ r = here ++ [n] ∧
        (root.get? r).isSome := by
  constructor
  · intro h
    have hplace {l : Location} {t : Turn} (ht : turn root here n = .ok t)
        (hl : t = .place l ∨ ∃ target, t = .link l target) :
        root.bare? here = some .empty ∧ nameTooLong here n = false ∧ l = here ++ [n] ∧
          (root.get? l).isSome := by
      obtain ⟨hdir, ⟨hdot, -⟩ | ⟨hdots, -⟩ | ⟨-, hlong, y, hy, rfl⟩⟩ := turn_eq_ok_iff.mp ht
      · exact absurd hdot hn.1
      · exact absurd hdots hn.2
      · have hl : l = here ++ [n] := by
          rcases hl with hl | ⟨target, hl⟩
          · cases y <;> cases hl <;> rfl
          · cases y <;> cases hl
            rfl
        refine ⟨hdir, hlong, hl, ?_⟩
        rw [hl, ← isSome_bare?_iff, hy]
        rfl
    rcases go_cons_eq_ok h with ⟨l, ht, h⟩ | ⟨target, ht, -, -, rfl⟩ | ⟨target, k, ht, hlast, -⟩
    · rw [go_nil, Except.ok.injEq] at h
      subst h
      exact hplace ht (Or.inl rfl)
    · exact hplace ht (Or.inr ⟨target, rfl⟩)
    · exact absurd ⟨rfl, rfl⟩ hlast
  · rintro ⟨hdir, hlong, rfl, hsome⟩
    obtain ⟨y, hy⟩ := Option.isSome_iff_exists.mp (isSome_bare?_iff.mpr hsome)
    have ht : turn root here n = .ok (.onto (here ++ [n]) y) :=
      turn_eq_ok_iff.mpr ⟨hdir, Or.inr (Or.inr ⟨hn, hlong, y, hy, rfl⟩)⟩
    rw [go_cons, ht]
    cases y with
    | link target => rfl
    | _ => exact go_nil

end FileSystem
end LintGate
