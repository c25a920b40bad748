import LintGate.Proofs.Rules
import LintGate.Proofs.Script

/-!
# Rules without wildcards

A rule is read as a script's path is, up to the slashes that end it: blanks around it, dots in
front of it and slashes behind it do not count.  If it has no wildcards, it covers the path that
it writes and what is below it, and nothing else.

## Main definitions

* `Rule.IsLiteral` — a text without wildcards and backslashes.
* `Rule.named` — the components of the script that a text names, without empty ones at the end.
* `Rule.Writes` — the texts that write a path in a rule.

## Main results

* `Rule.named_eq` — a text is read as a rule and as a script's path alike.
* `Rule.ofText?_of_isLiteral` — what a text without wildcards is read as.
* `Rule.literal_covers` — **a rule without wildcards covers the path that it writes.**
-/

namespace LintGate

open Text

/-! ### Slashes at the end of a path -/

namespace Path

theorem dropSlashes_concat_slash (cs : List Char) :
    dropSlashes (cs ++ ['/']) = dropSlashes cs :=
  List.rdropWhile_concat_pos (· == '/') cs '/' rfl

theorem dropSlashes_concat_of_ne {c : Char} (h : c ≠ '/') (cs : List Char) :
    dropSlashes (cs ++ [c]) = cs ++ [c] :=
  List.rdropWhile_concat_neg (· == '/') cs c (by simpa using h)

theorem dropSlashes_append_replicate (cs : List Char) (n : Nat) :
    dropSlashes (cs ++ List.replicate n '/') = dropSlashes cs := by
  induction n with
  | zero => rw [List.replicate_zero, List.append_nil]
  | succ n ih => rw [List.replicate_succ', ← List.append_assoc, dropSlashes_concat_slash, ih]

/-- The slashes at the end of a path are its empty components at the end. -/
theorem rdropWhile_splitOn (cs : List Char) :
    (splitOn '/' cs).rdropWhile List.isEmpty =
      if dropSlashes cs = [] then [] else splitOn '/' (dropSlashes cs) := by
  induction cs using List.reverseRecOn with
  | nil => rfl
  | append_singleton cs c ih =>
    by_cases hc : c = '/'
    · subst hc
      rw [splitOn_append, dropSlashes_concat_slash, ← ih]
      exact List.rdropWhile_concat_pos _ _ _ rfl
    · obtain ⟨ps, p, -, hsplit⟩ := splitOn_append_of_not_mem cs (b := [c])
        (fun h => hc (List.mem_singleton.mp h).symm)
      rw [dropSlashes_concat_of_ne hc, if_neg (by simp), hsplit]
      exact List.rdropWhile_concat_neg _ _ _ (by simp)

end Path

/-- A path starts with the components of a directory if it is the directory, or below it. -/
theorem Text.splitOn_isPrefix_iff {sep : Char} {dir path : List Char} :
    splitOn sep dir <+: splitOn sep path ↔ path = dir ∨ ∃ rest, path = dir ++ sep :: rest := by
  constructor
  · rintro ⟨more, hmore⟩
    have hjoin := joinWith_splitOn sep path
    rw [← hmore] at hjoin
    by_cases hnil : more = []
    · rw [hnil, List.append_nil, joinWith_splitOn] at hjoin
      exact Or.inl hjoin.symm
    · rw [joinWith_append (splitOn_ne_nil sep dir) hnil, joinWith_splitOn,
        List.append_assoc] at hjoin
      exact Or.inr ⟨_, hjoin.symm⟩
  · rintro (rfl | ⟨rest, rfl⟩)
    · exact List.prefix_rfl
    · rw [splitOn_append]
      exact List.prefix_append _ _

namespace Rule

/-! ### Reading a rule without wildcards -/

/-- A text without wildcards and backslashes. -/
def IsLiteral (raw : String) : Prop := ∀ c ∈ raw.toList, Glob.isWild c = false ∧ c ≠ '\\'

instance (raw : String) : Decidable (IsLiteral raw) :=
  inferInstanceAs (Decidable (∀ c ∈ raw.toList, Glob.isWild c = false ∧ c ≠ '\\'))

/-- The components of the script that a text names, without empty ones at the end. -/
def named (raw : String) : Components :=
  (ScriptPath.ofText raw).components.rdropWhile List.isEmpty

theorem body_sublist (cs : List Char) : (body cs).Sublist cs :=
  (List.rdropWhile_prefix (· == '/') _).sublist.trans
    ((Path.dropDots_suffix _).sublist.trans (strip_sublist cs))

/-- A rule is read as a script's path is, up to the slashes at its end. -/
theorem body_eq_dropSlashes {raw : String} (h : IsLiteral raw) :
    body raw.toList = Path.dropSlashes (ScriptPath.normalize raw.toList) := by
  have hslash : (strip raw.toList).map ScriptPath.slashed = strip raw.toList := by
    rw [ScriptPath.map_slashed_eq_self_iff]
    exact fun hmem => (h '\\' ((strip_sublist _).subset hmem)).2 rfl
  rw [body, ScriptPath.normalize, hslash]

/-- **A text is read as a rule and as a script's path alike.** -/
theorem named_eq {raw : String} (h : IsLiteral raw) :
    named raw = if body raw.toList = [] then [] else splitOn '/' (body raw.toList) := by
  rw [named, ScriptPath.components, ScriptPath.ofText, String.toList_ofList,
    Path.rdropWhile_splitOn, ← body_eq_dropSlashes h]

theorem mapM_of_not_isWild {path : Components}
    (h : ∀ cs ∈ path, ∀ c ∈ cs, Glob.isWild c = false) :
    path.mapM Glob.Pattern.ofText? = .ok (path.map fun cs => cs.map .char) := by
  induction path with
  | nil => rfl
  | cons cs path ih =>
    obtain ⟨hcs, hpath⟩ := List.forall_mem_cons.mp h
    rw [List.mapM_cons, Glob.ofText?_of_not_isWild hcs, ih hpath]
    rfl

/-- **What a text without wildcards is read as**: a pattern for each component that it names, and
no rule if it names none. -/
theorem ofText?_of_isLiteral {raw : String} (h : IsLiteral raw) :
    ofText? raw =
      if named raw = [] then .error .empty
      else .ok ⟨(named raw).map fun cs => cs.map .char⟩ := by
  have hnamed := named_eq h
  have hpieces : ∀ cs ∈ splitOn '/' (body raw.toList), ∀ c ∈ cs, Glob.isWild c = false := by
    intro cs hcs c hc
    have hsub : cs.Sublist (body raw.toList) := by
      rw [← joinWith_splitOn '/' (body raw.toList)]
      exact sublist_joinWith hcs
    exact (h c ((hsub.trans (body_sublist _)).subset hc)).1
  unfold ofText?
  split
  · next hbody =>
    rw [if_pos hbody] at hnamed
    rw [if_pos hnamed]
  · next hbody =>
    rw [if_neg hbody] at hnamed
    rw [← hnamed] at hpieces ⊢
    rw [mapM_of_not_isWild hpieces, if_neg (hnamed ▸ splitOn_ne_nil '/' _)]

/-! ### Writing a path -/

/-- A text writes a path in a rule: blanks stand around it, dots in front of it and slashes
behind it.  A path that starts with a blank has dots in front, and one that ends with a blank
has a slash behind, since such a blank is one of those around the path otherwise. -/
def Writes (path raw : List Char) : Prop :=
  ∃ before n m after, (∀ c ∈ before, isBlank c = true) ∧ (∀ c ∈ after, isBlank c = true) ∧
    raw = before ++ (Path.dots n ++ path ++ List.replicate m '/') ++ after ∧
    (path.head?.any isBlank = true → 0 < n) ∧ (path.getLast?.any isBlank = true → 0 < m)

/-- A path as it is found below a root: there is something in it, it is no dot and does not start
with one and a slash, and it does not end with a slash. -/
structure IsPath (path : List Char) : Prop where
  ne_nil : path ≠ []
  ne_dot : path ≠ ['.']
  ne_dots : ∀ rest, path ≠ '.' :: '/' :: rest
  ends : path.getLast? ≠ some '/'

variable {path raw : List Char}

/-- No dots stand in front of a path, with slashes behind it or without. -/
theorem IsPath.append_ne_dots (hp : IsPath path) (m : Nat) (rest : List Char) :
    path ++ List.replicate m '/' ≠ '.' :: '/' :: rest := by
  intro he
  cases path with
  | nil => exact hp.ne_nil rfl
  | cons c path =>
    obtain ⟨rfl, hmore⟩ := List.cons.inj he
    cases path with
    | nil => exact hp.ne_dot rfl
    | cons d path =>
      obtain ⟨rfl, -⟩ := List.cons.inj hmore
      exact hp.ne_dots path rfl

/-- The path is left of a text that writes it. -/
theorem body_of_writes (hp : IsPath path) (h : Writes path raw) : body raw = path := by
  obtain ⟨before, n, m, after, hbefore, hafter, rfl, hstart, hend⟩ := h
  have hstrip : strip (Path.dots n ++ path ++ List.replicate m '/') =
      Path.dots n ++ path ++ List.replicate m '/' := by
    rw [strip_eq_self_iff]
    constructor
    · cases n with
      | zero =>
        rw [Path.dots_zero, List.nil_append, List.head?_append_of_ne_nil _ hp.ne_nil]
        exact Bool.eq_false_iff.mpr fun h => absurd (hstart h) (Nat.lt_irrefl 0)
      | succ n => rfl
    · cases m with
      | zero =>
        rw [List.replicate_zero, List.append_nil, List.getLast?_append_of_ne_nil _ hp.ne_nil]
        exact Bool.eq_false_iff.mpr fun h => absurd (hend h) (Nat.lt_irrefl 0)
      | succ m => simp [List.replicate_succ', ← List.append_assoc, isBlank]
  have hdots : Path.dropDots (path ++ List.replicate m '/') = path ++ List.replicate m '/' :=
    Path.dropDots_of_ne (hp.append_ne_dots m)
  have hslashes : Path.dropSlashes path = path := by
    obtain ⟨front, c, rfl⟩ := (List.eq_nil_or_concat path).resolve_left hp.ne_nil
    rw [List.concat_eq_append]
    refine Path.dropSlashes_concat_of_ne ?_ front
    rintro rfl
    exact hp.ends (by simp)
  rw [body, strip_surrounded hbefore hafter, hstrip, List.append_assoc,
    Path.dropDots_dots_append, hdots, Path.dropSlashes_append_replicate, hslashes]

/-- One more rule among those that exclude: what it covers is not eligible any more. -/
theorem eligible_append_cons_iff (r : Rule) (front behind : List Rule) (path : Components) :
    PathRules.eligible ⟨front ++ r :: behind, []⟩ path = true ↔
      PathRules.eligible ⟨front ++ behind, []⟩ path = true ∧ ¬ r.covers path = true := by
  simp only [PathRules.eligible, List.any_append, List.any_cons, List.any_nil, Bool.or_false,
    Bool.not_eq_true', Bool.or_eq_false_iff, Bool.not_eq_true]
  exact and_left_comm.trans and_comm

/-- A rule alone leaves what it does not cover. -/
theorem eligible_singleton_iff (r : Rule) (path : Components) :
    PathRules.eligible ⟨[r], []⟩ path = false ↔ r.covers path = true := by
  simp [PathRules.eligible]

theorem ofTexts?_singleton {raw : String} {r : Rule} (h : ofText? raw = .ok r) :
    PathRules.ofTexts? [raw] [] = .ok ⟨[r], []⟩ := by
  simp [PathRules.ofTexts?, PathRules.readAll?, h, Except.map]

/-- A path is that of a directory or of something below it. -/
theorem splitOn_isPrefix_toList_iff (dir p : String) :
    splitOn '/' dir.toList <+: splitOn '/' p.toList ↔
      p = dir ∨ ∃ rest, p = dir ++ "/" ++ rest := by
  have hslash (rest : String) : (dir ++ "/" ++ rest).toList = dir.toList ++ '/' :: rest.toList := by
    simp
  rw [splitOn_isPrefix_iff, String.toList_inj]
  refine or_congr_right ⟨fun ⟨rest, hrest⟩ => ⟨String.ofList rest, ?_⟩,
    fun ⟨rest, hrest⟩ => ⟨rest.toList, ?_⟩⟩
  · rw [← String.toList_inj, hslash, String.toList_ofList, hrest]
  · rw [hrest, hslash]

/-- **A rule without wildcards covers the path that it writes.**  A text without wildcards and
backslashes is read as a script's path is.  It is no rule exactly if no component is left but
empty ones.  Else it covers the paths that start with its components, the empty ones at the end
left out, and these are the paths that it takes from the eligible ones where nothing is included
again.  So a rule that writes a path, with blanks around it, dots in front of it and slashes behind
it, excludes that path and all that is below it, and nothing else. -/
theorem literal_covers (raw : String) (h : IsLiteral raw) :
    ((∃ f, ofText? raw = .error f) ↔ named raw = []) ∧
    (∀ r, ofText? raw = .ok r →
      (∀ path : Components, r.covers path = true ↔ named raw <+: path) ∧
      ∀ (front behind : List Rule) (path : Components),
        PathRules.eligible ⟨front ++ r :: behind, []⟩ path = true ↔
          PathRules.eligible ⟨front ++ behind, []⟩ path = true ∧ ¬ named raw <+: path) ∧
    ∀ dir : String, IsPath dir.toList → Writes dir.toList raw.toList →
      ∃ rules, PathRules.ofTexts? [raw] [] = .ok rules ∧
        ∀ p : String, rules.eligible (splitOn '/' p.toList) = false ↔
          p = dir ∨ ∃ rest, p = dir ++ "/" ++ rest := by
  have hread := ofText?_of_isLiteral h
  have hcovers (path : Components) :
      covers ⟨(named raw).map fun cs => cs.map .char⟩ path = true ↔ named raw <+: path :=
    covers_map_iff Glob.accepts_chars (named raw) path
  refine ⟨?_, fun r hr => ?_, fun dir hdir hwrites => ?_⟩
  · by_cases hnil : named raw = []
    · rw [if_pos hnil] at hread
      exact iff_of_true ⟨.empty, hread⟩ hnil
    · rw [if_neg hnil] at hread
      exact iff_of_false (fun ⟨_, hf⟩ => nomatch hread.symm.trans hf) hnil
  · by_cases hnil : named raw = []
    · rw [if_pos hnil] at hread
      exact nomatch hread.symm.trans hr
    · rw [if_neg hnil] at hread
      obtain rfl := Except.ok.inj (hread.symm.trans hr)
      refine ⟨hcovers, fun front behind path => ?_⟩
      rw [eligible_append_cons_iff, hcovers]
  · have hbody := body_of_writes hdir hwrites
    have hnamed : named raw = splitOn '/' dir.toList := by
      rw [named_eq h, hbody, if_neg hdir.ne_nil]
    rw [hnamed, if_neg (splitOn_ne_nil '/' _)] at hread
    rw [hnamed] at hcovers
    refine ⟨_, ofTexts?_singleton hread, fun p => ?_⟩
    rw [eligible_singleton_iff, hcovers, splitOn_isPrefix_toList_iff]

/-- A directory whose name has a blank in it, in a rule with blanks, dots and slashes around it:
it is excluded with what is below it, but not the directory whose name only starts like it. -/
theorem literal_covers_vendored :
    IsLiteral "\t ././vendor/my lib// " ∧
    ∃ rules, PathRules.ofTexts? ["\t ././vendor/my lib// "] [] = .ok rules ∧
      rules.eligible (splitOn '/' "vendor/my lib/a.sh".toList) = false ∧
      rules.eligible (splitOn '/' "vendor/my library/a.sh".toList) = true := by
  have hliteral : IsLiteral "\t ././vendor/my lib// " := by simp [IsLiteral, Glob.isWild]
  have hdir : IsPath "vendor/my lib".toList :=
    ⟨by simp, by simp, fun rest => by simp, by simp⟩
  have hwrites : Writes "vendor/my lib".toList "\t ././vendor/my lib// ".toList :=
    ⟨['\t', ' '], 2, 2, [' '], by simp [isBlank], by simp [isBlank], by simp [List.replicate],
      by simp [isBlank], by simp [isBlank]⟩
  obtain ⟨rules, hread, hexcluded⟩ := (literal_covers _ hliteral).2.2 _ hdir hwrites
  refine ⟨hliteral, rules, hread, (hexcluded _).mpr (Or.inr ⟨"a.sh", rfl⟩), ?_⟩
  rw [← Bool.not_eq_false, hexcluded]
  rintro (hp | ⟨rest, hp⟩)
  · exact absurd (congrArg String.length hp) (by decide)
  · have hlist := congrArg String.toList hp
    simp at hlist

end Rule
end LintGate
