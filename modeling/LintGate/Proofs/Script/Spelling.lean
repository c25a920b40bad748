import LintGate.Proofs.Script
import Mathlib.Tactic.Tauto

/-!
# The texts that write a path

A path can be written with blanks around it, with dots in front of it and with backslashes for
slashes, and all these texts are brought to one form.  The form of a text is not always its own
form: the blanks are trimmed before the dots are dropped, so a blank behind the dots is left in
front, and is trimmed the next time.

## Main definitions

* `ScriptPath.Spells` — the texts that a path is written as.
* `ScriptPath.HidesBlank` — the texts with a blank behind their dots.

## Main results

* `ScriptPath.spells_normalize`, `ScriptPath.normalize_of_spells` — a text writes its form, and
  what the form is of a text that writes a path.
* `ScriptPath.ofText_eq_iff` — texts name one script exactly if they write one path.
* `ScriptPath.ofText_idempotent_iff` — **exactly when a script's path names the script.**
-/

namespace LintGate
namespace ScriptPath

open Text

/-! ### The form of a path -/

theorem isBlank_slashed (c : Char) : isBlank (slashed c) = isBlank c := by
  unfold slashed
  split
  · next hc => rw [hc]; decide
  · rfl

theorem backslash_not_mem_normalize (cs : List Char) : '\\' ∉ normalize cs := by
  intro h
  obtain ⟨c, -, hc⟩ := List.mem_map.mp ((Path.dropDots_suffix _).subset h)
  unfold slashed at hc
  split at hc
  · exact absurd hc (by decide)
  · contradiction

/-- No path in its form ends with a blank. -/
theorem getLast?_normalize (cs : List Char) : (normalize cs).getLast?.any isBlank = false := by
  have hstrip : stripEnd (strip cs) = strip cs := stripEnd_stripEnd _
  have hmap : ((strip cs).map slashed).getLast?.any isBlank = false := by
    rw [List.getLast?_map, Option.any_map, ← (stripEnd_eq_self_iff _).mp hstrip]
    exact congrArg (Option.any · _) (funext isBlank_slashed)
  obtain ⟨dots, hdots⟩ := Path.dropDots_suffix ((strip cs).map slashed)
  rw [← hdots, List.getLast?_append] at hmap
  rw [normalize]
  cases h : (Path.dropDots ((strip cs).map slashed)).getLast? with
  | none => rfl
  | some c => rwa [h] at hmap

/-- The path of a file below a root is in the form of some path. -/
theorem exists_normalize {root path : String} {s : ScriptPath} (h : relative? root path = some s) :
    ∃ cs, s.text.toList = normalize cs := by
  obtain ⟨names, -, rfl⟩ := Option.map_eq_some_iff.mp h
  exact ⟨_, String.toList_ofList⟩

/-- A path in its form is read as it is unless it starts with a blank. -/
theorem ofText_text_iff {s : ScriptPath} {cs : List Char} (h : s.text.toList = normalize cs) :
    ofText s.text = s ↔ s.text.toList.head?.any isBlank = false := by
  have hform := normalize_eq_self_iff (Path.dropDots_ne ((strip cs).map slashed))
  rw [← normalize.eq_def, ← h] at hform
  have hback : '\\' ∉ s.text.toList := h ▸ backslash_not_mem_normalize cs
  have hend : s.text.toList.getLast?.any isBlank = false := h ▸ getLast?_normalize cs
  obtain ⟨text⟩ := s
  rw [ofText, mk.injEq, ← String.toList_inj, String.toList_ofList, hform]
  tauto

/-- A path that is as long as its form is in its form. -/
theorem ofText_text_of_length_le {s : ScriptPath} (hback : '\\' ∉ s.text.toList)
    (hlen : s.text.toList.length ≤ (ofText s.text).text.toList.length) : ofText s.text = s := by
  obtain ⟨text⟩ := s
  rw [ofText, String.toList_ofList] at hlen
  have hstrip : strip text.toList = text.toList :=
    (strip_sublist _).eq_of_length_le (hlen.trans (length_normalize_le _))
  have hslash := (map_slashed_eq_self_iff _).mpr hback
  rw [normalize, hstrip, hslash] at hlen
  rw [ofText, mk.injEq, ← String.toList_inj, String.toList_ofList, normalize, hstrip, hslash]
  exact (Path.dropDots_suffix _).eq_of_length_le hlen

/-! ### Texts that write a path -/

theorem strip_map_slashed (cs : List Char) : strip (cs.map slashed) = (strip cs).map slashed := by
  have hblank : isBlank ∘ slashed = isBlank := funext isBlank_slashed
  simp only [strip, stripStart, stripEnd, ← List.map_reverse, List.dropWhile_map, hblank]

theorem stripEnd_dots_append (n : Nat) (path : List Char) :
    stripEnd (Path.dots n ++ path) = Path.dots n ++ stripEnd path := by
  induction n with
  | zero => rfl
  | succ n ih =>
    have hstep : ∀ more, Path.dots (n + 1) ++ more = ['.'] ++ '/' :: (Path.dots n ++ more) :=
      fun _ => rfl
    rw [hstep, stripEnd_append_cons (by decide), ih, hstep]

/-- A text writes a path: blanks stand around the path and dots in front of it, and some of its
slashes are backslashes.  If the path starts with a blank there are dots, since the blank is one
of those around the path otherwise. -/
def Spells (path text : List Char) : Prop :=
  ∃ before n after, (∀ c ∈ before, isBlank c = true) ∧ (∀ c ∈ after, isBlank c = true) ∧
    text.map slashed = before ++ (Path.dots n ++ path) ++ after ∧
    (path.head?.any isBlank = true → 0 < n)

/-- The form of a text that writes a path. -/
theorem normalize_of_spells {path text : List Char} (h : Spells path text) :
    normalize text = Path.dropDots (stripEnd path) := by
  obtain ⟨before, n, after, hbefore, hafter, htext, hstart⟩ := h
  have hfront : stripStart (Path.dots n ++ path) = Path.dots n ++ path := by
    rw [stripStart_eq_self_iff]
    cases n with
    | zero => exact Bool.eq_false_iff.mpr fun h => absurd (hstart h) (Nat.lt_irrefl 0)
    | succ n => rfl
  rw [normalize, ← strip_map_slashed, htext, strip_surrounded hbefore hafter, strip, hfront,
    stripEnd_dots_append, Path.dropDots_dots_append]

/-- A text writes its form. -/
theorem spells_normalize (text : List Char) : Spells (normalize text) text := by
  obtain ⟨before, after, hbefore, hafter, htext⟩ := exists_surrounded_strip (text.map slashed)
  obtain ⟨n, hn⟩ := Path.exists_dots_append (strip (text.map slashed))
  have hform : normalize text = Path.dropDots (strip (text.map slashed)) := by
    rw [normalize, strip_map_slashed]
  rw [← hform] at hn
  refine ⟨before, n, after, hbefore, hafter, hn ▸ htext, fun hblank => ?_⟩
  rw [Nat.pos_iff_ne_zero]
  rintro rfl
  -- without dots the form is what is left between the blanks
  rw [Path.dots_zero, List.nil_append] at hn
  have hstart := ((strip_eq_self_iff _).mp (strip_strip (text.map slashed))).1
  rw [hn, hblank] at hstart
  exact absurd hstart (by decide)

/-- **Texts name one script exactly if they write one path.** -/
theorem ofText_eq_iff (a b : String) :
    ofText a = ofText b ↔ ∃ path, Spells path a.toList ∧ Spells path b.toList := by
  rw [ofText, ofText, mk.injEq, String.ofList_inj]
  constructor
  · intro h
    exact ⟨_, spells_normalize _, h ▸ spells_normalize _⟩
  · rintro ⟨path, ha, hb⟩
    rw [normalize_of_spells ha, normalize_of_spells hb]

/-! ### The form of a form -/

/-- A blank stands behind the dots of a text, and something that is no blank behind it. -/
def HidesBlank (text : List Char) : Prop :=
  ∃ c rest, isBlank c = true ∧ isAllBlank rest = false ∧ Spells (c :: rest) text

/-- The form of a text starts with a blank exactly if one stands behind the dots. -/
theorem head?_normalize_isBlank_iff (text : List Char) :
    (normalize text).head?.any isBlank = true ↔ HidesBlank text := by
  constructor
  · intro h
    have hend : stripEnd (normalize text) = normalize text :=
      (stripEnd_eq_self_iff _).mpr (getLast?_normalize text)
    have hspells := spells_normalize text
    cases hform : normalize text with
    | nil =>
      rw [hform] at h
      exact nomatch h
    | cons c rest =>
      rw [hform] at h hend hspells
      have hc : isBlank c = true := h
      refine ⟨c, rest, hc, ?_, hspells⟩
      -- a form of blanks alone would end with one
      rw [stripEnd_cons] at hend
      split at hend
      · exact nomatch hend
      · next hall => simpa [hc] using hall
  · rintro ⟨c, rest, hc, hrest, hspells⟩
    have hall : ¬ isAllBlank (c :: rest) = true := by simp [hrest]
    have hdot : ∀ more, c :: stripEnd rest ≠ '.' :: '/' :: more := by
      rintro more he
      rw [(List.cons.inj he).1] at hc
      exact absurd hc (by decide)
    rw [normalize_of_spells hspells, stripEnd_cons, if_neg hall, Path.dropDots_of_ne hdot]
    exact hc

/-- **Exactly when a script's path names the script.**  The path that a text is brought to is
brought to itself unless a blank stands behind the dots of the text.  Then it names another
script, whose path is shorter. -/
theorem ofText_idempotent_iff (raw : String) :
    (ofText (ofText raw).text = ofText raw ↔ ¬ HidesBlank raw.toList) ∧
    (HidesBlank raw.toList →
      (ofText (ofText raw).text).text.toList.length < (ofText raw).text.toList.length) := by
  have hform : (ofText raw).text.toList = normalize raw.toList := String.toList_ofList
  have hiff : ofText (ofText raw).text = ofText raw ↔ ¬ HidesBlank raw.toList := by
    rw [ofText_text_iff hform, hform, ← head?_normalize_isBlank_iff, Bool.not_eq_true]
  refine ⟨hiff, fun hhides => ?_⟩
  by_contra hlen
  refine hiff.mp (ofText_text_of_length_le ?_ (Nat.le_of_not_lt hlen)) hhides
  rw [hform]
  exact backslash_not_mem_normalize _

/-- A blank behind the dots: the path that is left starts with it, and names the script without
it. -/
theorem ofText_idempotent_not_blank :
    ofText "./ a.sh" = ⟨" a.sh"⟩ ∧ ofText (ofText "./ a.sh").text = ⟨"a.sh"⟩ := by decide

end ScriptPath
end LintGate
