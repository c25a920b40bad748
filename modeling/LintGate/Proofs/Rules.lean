import LintGate.Proofs.Glob
import LintGate.Proofs.Text.Blank
import LintGate.Proofs.Text.Lines
import LintGate.Proofs.Path
import LintGate.Rules

/-!
# Rules and the paths below a directory

A rule that covers a directory covers all that is below it, and one that covers something
below a directory reaches below the directory.  So a directory is pruned only if no path
that starts with it is eligible.

## Main definitions

* `Rule.quoted`, `Rule.quotedText` — the rule for one path and what is below it.

## Main results

* `PathRules.eligible_of_prunes`, `PathRules.prunes_of_prunes` — nothing that starts with a pruned
  directory is eligible, and it is pruned itself.
* `PathRules.prunes_below` — **what is below a pruned directory.**
* `Rule.ofText?_quotedText`, `Rule.covers_quoted_iff` — every path has a rule of its own.
-/

namespace LintGate

open Text

namespace Rule

variable {dir path : Components} {r : Rule}

theorem agrees_of_append (ps : List Glob.Pattern) (dir more : Components)
    (h : agrees ps (dir ++ more) = true) : agrees ps dir = true := by
  induction ps generalizing dir with
  | nil => rfl
  | cons p ps ih =>
    cases dir with
    | nil => rfl
    | cons c dir =>
      rw [List.cons_append, agrees_cons_cons, Bool.and_eq_true] at h
      rw [agrees_cons_cons, h.1, ih dir h.2, Bool.true_and]

theorem agrees_append (ps : List Glob.Pattern) (dir more : Components)
    (hlen : ps.length ≤ dir.length) (h : agrees ps dir = true) :
    agrees ps (dir ++ more) = true := by
  induction ps generalizing dir with
  | nil => rfl
  | cons p ps ih =>
    cases dir with
    | nil => exact absurd hlen (by simp)
    | cons c dir =>
      rw [agrees_cons_cons, Bool.and_eq_true] at h
      rw [List.cons_append, agrees_cons_cons, h.1, Bool.true_and]
      exact ih dir (Nat.le_of_succ_le_succ hlen) h.2

/-- A rule that covers a directory covers what is below it. -/
theorem covers_of_covers (hp : dir <+: path) (h : r.covers dir = true) :
    r.covers path = true := by
  obtain ⟨more, rfl⟩ := hp
  obtain ⟨hlen, hagrees⟩ := Bool.and_eq_true_iff.mp h
  have hlen := of_decide_eq_true hlen
  refine Bool.and_eq_true_iff.mpr ⟨decide_eq_true ?_, agrees_append _ _ _ hlen hagrees⟩
  rw [List.length_append]
  exact Nat.le_add_right_of_le hlen

/-- A rule that covers something below a directory reaches below the directory. -/
theorem reachesBelow_of_covers (hp : dir <+: path) (h : r.covers path = true) :
    r.reachesBelow dir = true := by
  obtain ⟨more, rfl⟩ := hp
  rw [reachesBelow_eq_agrees]
  exact agrees_of_append _ _ more (Bool.and_eq_true_iff.mp h).2

/-- A rule that reaches below something below a directory reaches below the directory. -/
theorem reachesBelow_of_reachesBelow (hp : dir <+: path) (h : r.reachesBelow path = true) :
    r.reachesBelow dir = true := by
  obtain ⟨more, rfl⟩ := hp
  rw [reachesBelow_eq_agrees] at h ⊢
  exact agrees_of_append _ _ more h

/-! ### The rule of one path -/

/-- The rule that covers a path and what is below it, and nothing else. -/
def quoted (path : Components) : Rule := ⟨path.map fun c => c.map Glob.Token.only⟩

/-- How the rule of a path is written. -/
def quotedText (path : Components) : String :=
  String.ofList (joinWith ['/'] (path.map Glob.quote))

/-- Patterns that match one component each agree with a path as far as both go. -/
theorem agrees_map_iff {pattern : List Char → Glob.Pattern}
    (h : ∀ cs ds, (pattern cs).accepts ds = true ↔ ds = cs) (path dir : Components) :
    agrees (path.map pattern) dir = true ↔ path <+: dir ∨ dir <+: path := by
  induction path generalizing dir with
  | nil => simp
  | cons c path ih =>
    cases dir with
    | nil => simp
    | cons d dir =>
      rw [List.map_cons, agrees_cons_cons, Bool.and_eq_true, h, ih, List.cons_prefix_cons,
        List.cons_prefix_cons]
      constructor
      · rintro ⟨rfl, h⟩
        exact h.imp (fun h => ⟨rfl, h⟩) fun h => ⟨rfl, h⟩
      · rintro (⟨rfl, h⟩ | ⟨rfl, h⟩)
        · exact ⟨rfl, Or.inl h⟩
        · exact ⟨rfl, Or.inr h⟩

/-- A rule whose patterns match one component each covers what starts with them. -/
theorem covers_map_iff {pattern : List Char → Glob.Pattern}
    (h : ∀ cs ds, (pattern cs).accepts ds = true ↔ ds = cs) (path dir : Components) :
    covers ⟨path.map pattern⟩ dir = true ↔ path <+: dir := by
  rw [covers, Bool.and_eq_true, agrees_map_iff h, decide_eq_true_iff, List.length_map]
  constructor
  · rintro ⟨hle, h | h⟩
    · exact h
    · have he : dir = path := h.eq_of_length (Nat.le_antisymm h.length_le hle)
      exact he ▸ List.prefix_rfl
  · exact fun h => ⟨h.length_le, Or.inl h⟩

theorem agrees_quoted_iff :
    agrees (quoted path).patterns dir = true ↔ path <+: dir ∨ dir <+: path :=
  agrees_map_iff Glob.accepts_quoted path dir

/-- The rule of a path covers what starts with the path. -/
theorem covers_quoted_iff : (quoted path).covers dir = true ↔ path <+: dir :=
  covers_map_iff Glob.accepts_quoted path dir

/-- A quoted text starts and ends with a character that no reading drops. -/
theorem quoteChar_ends (c : Char) :
    ∃ a z, (Glob.quoteChar c).head? = some a ∧ (Glob.quoteChar c).getLast? = some z ∧
      (a = '!' ∨ a = '[') ∧ (z = '!' ∨ z = ']') := by
  unfold Glob.quoteChar
  split
  · exact ⟨'!', '!', rfl, rfl, Or.inl rfl, Or.inl rfl⟩
  · exact ⟨'[', ']', rfl, rfl, Or.inr rfl, Or.inr rfl⟩

theorem head?_quotedText (path : Components) {a : Char}
    (h : (joinWith ['/'] (path.map Glob.quote)).head? = some a) :
    a = '/' ∨ a = '!' ∨ a = '[' := by
  cases path with
  | nil => exact nomatch h
  | cons c path =>
    cases c with
    | nil =>
      cases path with
      | nil => exact nomatch h
      | cons c' path => exact Or.inl (Option.some.inj h).symm
    | cons x c =>
      obtain ⟨b, z, hb, -, hb', -⟩ := quoteChar_ends x
      have hstart : ∃ more, joinWith ['/'] (((x :: c) :: path).map Glob.quote) =
          Glob.quoteChar x ++ more := by
        cases path with
        | nil => exact ⟨Glob.quote c, rfl⟩
        | cons c' path =>
          exact ⟨Glob.quote c ++ (['/'] ++ joinWith ['/'] ((c' :: path).map Glob.quote)), by
            simp [Glob.quote]⟩
      obtain ⟨more, hmore⟩ := hstart
      rw [hmore, List.head?_append, hb, Option.some_or] at h
      exact Or.inr (Option.some.inj h ▸ hb')

theorem getLast?_quotedText (init : Components) {last : List Char} (hlast : last ≠ []) :
    ∃ z, (joinWith ['/'] ((init ++ [last]).map Glob.quote)).getLast? = some z ∧
      (z = '!' ∨ z = ']') := by
  obtain ⟨cs, c, rfl⟩ := (List.eq_nil_or_concat last).resolve_left hlast
  rw [List.concat_eq_append]
  obtain ⟨-, z, -, hz, -, hz'⟩ := quoteChar_ends c
  have hquote : Glob.quote (cs ++ [c]) = Glob.quote cs ++ Glob.quoteChar c := by
    simp [Glob.quote]
  refine ⟨z, ?_, hz'⟩
  cases init with
  | nil =>
    rw [List.nil_append, List.map_singleton, joinWith_singleton, hquote, List.getLast?_append, hz]
    rfl
  | cons d init =>
    rw [List.map_append, joinWith_append (by simp) (by simp), List.map_singleton,
      joinWith_singleton, hquote, List.getLast?_append, List.getLast?_append, hz]
    rfl

/-- What is written stays as it is when it is read. -/
theorem body_quotedText {init : Components} {last : List Char} (hlast : last ≠ []) :
    body (joinWith ['/'] ((init ++ [last]).map Glob.quote)) =
      joinWith ['/'] ((init ++ [last]).map Glob.quote) := by
  obtain ⟨z, hz, hz'⟩ := getLast?_quotedText init hlast
  have hhead {a : Char} := head?_quotedText (init ++ [last]) (a := a)
  -- Only the first and the last character decide what is dropped.
  generalize joinWith ['/'] ((init ++ [last]).map Glob.quote) = cs at hz hhead
  have hstrip : strip cs = cs := by
    rw [strip_eq_self_iff, hz]
    constructor
    · cases hc : cs.head? with
      | none => rfl
      | some a => rcases hhead hc with rfl | rfl | rfl <;> decide
    · rcases hz' with rfl | rfl <;> decide
  have hdots : Path.dropDots cs = cs := by
    refine Path.dropDots_of_ne fun more he => ?_
    rw [he] at hhead
    rcases hhead rfl with h | h | h <;> exact absurd h (by decide)
  have hslashes : Path.dropSlashes cs = cs := by
    obtain ⟨front, rfl⟩ := List.getLast?_eq_some_iff.mp hz
    have hne : (z == '/') = false := by rcases hz' with rfl | rfl <;> decide
    simp [Path.dropSlashes, hne]
  rw [body, hstrip, hdots, hslashes]

theorem mapM_quote (path : Components) :
    (path.map Glob.quote).mapM Glob.Pattern.ofText? =
      .ok (path.map fun c => c.map Glob.Token.only) := by
  induction path with
  | nil => rfl
  | cons c path ih =>
    rw [List.map_cons, List.mapM_cons, Glob.ofText?_quote, ih]
    rfl

theorem slash_not_mem_quote {cs : List Char} (h : '/' ∉ cs) : '/' ∉ Glob.quote cs := by
  intro hmem
  obtain ⟨c, hc, hslash⟩ := List.mem_flatMap.mp hmem
  unfold Glob.quoteChar at hslash
  split at hslash
  · exact absurd hslash (by decide)
  · have : c = '/' := by simpa [eq_comm] using hslash
    exact h (this ▸ hc)

/-- **Every path that ends with a name has a rule of its own.** -/
theorem ofText?_quotedText {init : Components} {last : List Char} (hlast : last ≠ [])
    (hslash : ∀ c ∈ init ++ [last], '/' ∉ c) :
    ofText? (quotedText (init ++ [last])) = .ok (quoted (init ++ [last])) := by
  have hsplit : splitOn '/' (joinWith ['/'] ((init ++ [last]).map Glob.quote)) =
      (init ++ [last]).map Glob.quote := by
    refine splitOn_joinWith (by simp) fun p hp => ?_
    obtain ⟨c, hc, rfl⟩ := List.mem_map.mp hp
    exact slash_not_mem_quote (hslash c hc)
  have hne : joinWith ['/'] ((init ++ [last]).map Glob.quote) ≠ [] := by
    obtain ⟨z, hz, -⟩ := getLast?_quotedText init hlast
    intro h
    rw [h] at hz
    exact nomatch hz
  rw [ofText?, quotedText, String.toList_ofList, body_quotedText hlast]
  split
  · next h => exact absurd h hne
  · rw [hsplit, mapM_quote]
    rfl

/-- The rule that covers everything. -/
def everything : Rule := ⟨[[.run]]⟩

theorem ofText?_everything : ofText? "*" = .ok everything := by cbv

theorem covers_everything (h : path ≠ []) : everything.covers path = true := by
  obtain ⟨c, cs, rfl⟩ := List.exists_cons_of_ne_nil h
  simp [everything, covers, Glob.accepts_star]

end Rule

namespace PathRules

variable {dir path : Components} {rules : PathRules}

/-- What is below a pruned directory is pruned: the rules that cover the directory cover it, and
a rule that reaches below it would reach below the directory. -/
theorem prunes_of_prunes (hp : dir <+: path) (h : rules.prunes dir = true) :
    rules.prunes path = true := by
  obtain ⟨hex, hinc⟩ := Bool.and_eq_true_iff.mp h
  obtain ⟨r, hr, hcovers⟩ := List.any_eq_true.mp hex
  refine Bool.and_eq_true_iff.mpr
    ⟨List.any_eq_true.mpr ⟨r, hr, Rule.covers_of_covers hp hcovers⟩, ?_⟩
  rw [Bool.not_eq_true', List.any_eq_false] at hinc ⊢
  exact fun r hr hreaches => hinc r hr (Rule.reachesBelow_of_reachesBelow hp hreaches)

/-- What is pruned is not eligible itself. -/
theorem eligible_of_prunes_self (h : rules.prunes path = true) : rules.eligible path = false := by
  obtain ⟨hex, hinc⟩ := Bool.and_eq_true_iff.mp h
  have hincluded : rules.included.any (·.covers path) = false := by
    rw [Bool.not_eq_true', List.any_eq_false] at hinc
    rw [List.any_eq_false]
    exact fun r hr hcovers => hinc r hr (Rule.reachesBelow_of_covers List.prefix_rfl hcovers)
  rw [eligible, hex, hincluded]
  rfl

/-- **Nothing that starts with a pruned directory is eligible.** -/
theorem eligible_of_prunes (hp : dir <+: path) (h : rules.prunes dir = true) :
    rules.eligible path = false :=
  eligible_of_prunes_self (prunes_of_prunes hp h)

/-- **Pruning loses nothing and goes down.**  Whatever the rules, nothing below a pruned
directory is eligible, and every directory below it is pruned. -/
theorem prunes_below (rules : PathRules) (dir rest : String)
    (h : rules.prunes (splitOn '/' dir.toList) = true) :
    rules.eligible (splitOn '/' (dir ++ "/" ++ rest).toList) = false ∧
      rules.prunes (splitOn '/' (dir ++ "/" ++ rest).toList) = true := by
  have hbelow : splitOn '/' dir.toList <+: splitOn '/' (dir ++ "/" ++ rest).toList := by
    have hslash : (dir ++ "/" ++ rest).toList = dir.toList ++ '/' :: rest.toList := by simp
    rw [hslash, splitOn_append]
    exact List.prefix_append _ _
  exact ⟨eligible_of_prunes hbelow h, prunes_of_prunes hbelow h⟩

/-- A directory that is excluded by a shorter rule and by one as long as its path, beside one
that a longer rule includes. -/
theorem prunes_below_forked : ∃ rules : PathRules,
    ofTexts? ["third_party", "*/gen?rated"] ["third_party/forked/lib"] = .ok rules ∧
    rules.prunes (splitOn '/' "third_party/forked".toList) = false ∧
    rules.prunes (splitOn '/' "third_party/generated".toList) = true ∧
    rules.eligible (splitOn '/' "third_party/generated/lib/a.sh".toList) = false ∧
    rules.prunes (splitOn '/' "third_party/generated/lib/a.sh".toList) = true := by
  have hread : ofTexts? ["third_party", "*/gen?rated"] ["third_party/forked/lib"] =
      .ok ⟨[⟨["third_party".toList.map .char]⟩,
          ⟨[[.run], "gen".toList.map .char ++ .any :: "rated".toList.map .char]⟩],
        [⟨["third_party".toList.map .char, "forked".toList.map .char,
          "lib".toList.map .char]⟩]⟩ := by cbv
  refine ⟨_, hread, by cbv, by cbv, prunes_below _ "third_party/generated" "lib/a.sh" (by cbv)⟩

end PathRules
end LintGate
