import LintGate.Proofs.Text.Blank
import LintGate.Proofs.Text.Search
import LintGate.Tool.Version

/-!
# The first entry in an output

The version is what a search for a pattern keeps: a line that starts with the label, blanks, a
word, and blanks up to the end of a line.  Such a search goes back and tries less wherever more
leads nowhere, but here it never gains anything by that.  So the word that it keeps is the one of
the first entry, and an entry can be told from what stands at one position.

## Main definitions

* `VersionEntry.pattern` — the pattern that is searched for.
* `VersionEntry.IsEntry`, `VersionEntry.EntryAt` — the texts that start with an entry, and the
  positions of a text where one stands.

## Main results

* `VersionEntry.search_pattern` — the search keeps the word that is found.
* `VersionEntry.word?_eq_some_iff` — the word of a text that starts with an entry.
* `VersionEntry.EntryAt.of_append_lf` — no entry appears in front of one by text on further lines.
* `VersionEntry.finds_first_entry` — **the version is the word of the first entry.**
-/

namespace LintGate
namespace VersionEntry

open Text

/-! ### The search -/

/-- The pattern that is searched for: the label at the start of a line, a word, and the end of a
line, with blanks around the word. -/
def pattern : List Part :=
  .lineStart :: (label.map .char ++
    [.many isBlank, .kept (!isBlank ·), .many isBlank, .lineEnd])

theorem endsLine_cons_of_isBlank {c : Char} (hc : isBlank c = true) (cs : List Char) :
    endsLine (c :: cs) = (c == '\n' || endsLine cs) := by
  by_cases h : c = '\n'
  · subst h
    simp [endsLine, hc]
  · simp [endsLine, h, Ne.symm h, hc]

theorem endsLine_cons_of_not {c : Char} (hc : isBlank c = false) (cs : List Char) :
    endsLine (c :: cs) = false := by
  simp [endsLine, hc]

/-- Blanks are taken up to the end of a line if they reach one. -/
theorem head?_keptBy_lineEnd (behind cs : List Char) :
    (keptBy [.many isBlank, .lineEnd] ⟨behind, cs⟩).head? =
      if endsLine cs then some [] else none := by
  have hend : ∀ x : Place, keptBy [.lineEnd] x = if x.endsLine then [[]] else [] := by
    intro x
    rw [keptBy_cons, Part.ways]
    split <;> rfl
  rw [keptBy_many]
  simp only [hend]
  induction cs generalizing behind with
  | nil => rfl
  | cons c cs ih =>
    cases hc : isBlank c with
    | true =>
      rw [greedy, if_pos hc, List.flatMap_append, List.flatMap_map, List.head?_append, ih,
        List.flatMap_singleton, endsLine_cons_of_isBlank hc, Place.endsLine]
      cases endsLine cs <;> cases hlf : (c == '\n') <;> simp [hlf]
    | false =>
      have hlf : (c == '\n') = false := by
        rw [beq_eq_false_iff_ne]
        rintro rfl
        exact absurd hc (by decide)
      rw [greedy_cons_of_not hc, List.flatMap_singleton, endsLine_cons_of_not hc, Place.endsLine]
      simp [hlf]

/-- No line ends at a character that is no blank, whatever is tried. -/
theorem keptBy_lineEnd_cons {c : Char} (hc : isBlank c = false) (behind cs : List Char) :
    keptBy [.many isBlank, .lineEnd] ⟨behind, c :: cs⟩ = [] := by
  rw [← List.head?_eq_none_iff, head?_keptBy_lineEnd, endsLine_cons_of_not hc]
  rfl

/-- A word is taken as a whole, since nothing matches behind a part of it. -/
theorem keptBy_word (behind cs : List Char) :
    keptBy [.kept (!isBlank ·), .many isBlank, .lineEnd] ⟨behind, cs⟩ =
      if cs.takeWhile (!isBlank ·) = [] then []
      else (keptBy [.many isBlank, .lineEnd] ⟨(cs.takeWhile (!isBlank ·)).reverse ++ behind,
        cs.dropWhile (!isBlank ·)⟩).map (cs.takeWhile (!isBlank ·) :: ·) := by
  rw [keptBy_kept, flatMap_greedy]
  intro taken behind c cs hc
  rw [keptBy_lineEnd_cons (by simpa using hc)]
  simp

/-- The blanks in front of a word are all taken, since no word starts with one. -/
theorem keptBy_entry (behind cs : List Char) :
    keptBy [.many isBlank, .kept (!isBlank ·), .many isBlank, .lineEnd] ⟨behind, cs⟩ =
      keptBy [.kept (!isBlank ·), .many isBlank, .lineEnd]
        ⟨(cs.takeWhile isBlank).reverse ++ behind, stripStart cs⟩ := by
  rw [keptBy_many, flatMap_greedy]
  · rfl
  · intro taken behind c cs hc
    rw [keptBy_word]
    simp [hc]

/-- What the search keeps of the entry that a text starts with. -/
theorem head?_keptBy_pattern (x : Place) :
    (keptBy pattern x).head? = if x.startsLine then (word? x.ahead).map ([·]) else none := by
  obtain ⟨behind, cs⟩ := x
  rw [pattern, keptBy_lineStart]
  split
  · rw [keptBy_chars, word?]
    cases dropInit? label cs with
    | none => rfl
    | some rest =>
      simp only [Option.map_some, Option.getD_some, Option.bind_some]
      rw [keptBy_entry, keptBy_word]
      by_cases hword : (stripStart rest).takeWhile (!isBlank ·) = []
      · simp [hword]
      · rw [if_neg hword, List.head?_map, head?_keptBy_lineEnd]
        cases endsLine ((stripStart rest).dropWhile (!isBlank ·)) <;> simp [hword]
  · rfl

/-- **The search keeps the word that is found.** -/
theorem search_pattern (cs : List Char) : search pattern cs = (find? cs).map ([·]) := by
  have hfrom : ∀ behind, searchFrom pattern behind cs =
      (findFrom? (Place.startsLine ⟨behind, cs⟩) cs).map ([·]) := by
    induction cs with
    | nil =>
      intro behind
      rw [searchFrom, head?_keptBy_pattern]
      split <;> rfl
    | cons c cs ih =>
      intro behind
      have hnext : Place.startsLine ⟨c :: behind, cs⟩ = (c == '\n') := rfl
      rw [searchFrom, head?_keptBy_pattern, ih, hnext, findFrom?]
      split
      · cases word? (c :: cs) <;> rfl
      · rfl
  exact hfrom []

/-! ### Positions -/

/-- A text starts with an entry: with the label, blanks, a word, and blanks that reach the end of a
line or of the text. -/
def IsEntry (cs word : List Char) : Prop :=
  ∃ blanks after rest, cs = label ++ (blanks ++ (word ++ (after ++ rest))) ∧
    (∀ c ∈ blanks, isBlank c = true) ∧
    word ≠ [] ∧ (∀ c ∈ word, isBlank c = false) ∧
    (∀ c ∈ after, isBlank c = true) ∧ rest.head?.any isBlank = false ∧
    ('\n' ∈ after ∨ rest = [])

theorem label_ne_nil : label ≠ [] := by decide

/-- A line starts at a position. -/
def StartsLine (cs : List Char) (i : Nat) : Prop := i = 0 ∨ cs[i - 1]? = some '\n'

/-- An entry stands at a position, where a line starts. -/
structure EntryAt (cs : List Char) (i : Nat) (word : List Char) : Prop where
  startsLine : StartsLine cs i
  isEntry : IsEntry (cs.drop i) word

theorem endsLine_append {after rest : List Char} (hafter : ∀ c ∈ after, isBlank c = true)
    (hrest : rest.head?.any isBlank = false) :
    endsLine (after ++ rest) = true ↔ '\n' ∈ after ∨ rest = [] := by
  simp [endsLine, (takeWhile_append_of_stop hafter hrest).1]

/-- **The word of a text that starts with an entry.** -/
theorem word?_eq_some_iff {cs word : List Char} : word? cs = some word ↔ IsEntry cs word := by
  constructor
  · intro h
    obtain ⟨behind, hlabel, hword⟩ := Option.bind_eq_some_iff.mp h
    rw [dropInit?_eq_some_iff] at hlabel
    dsimp only at hword
    split at hword
    · next hfound =>
      cases hword
      generalize hbody : stripStart behind = body at hfound ⊢
      rw [Bool.and_eq_true, Bool.not_eq_true', List.isEmpty_eq_false_iff] at hfound
      obtain ⟨hne, hends⟩ := hfound
      generalize htail : body.dropWhile (!isBlank ·) = tail at hends
      have hafter : ∀ c ∈ tail.takeWhile isBlank, isBlank c = true :=
        fun c hc => List.mem_takeWhile_imp hc
      have hrest := head?_dropWhile isBlank tail
      rw [← List.takeWhile_append_dropWhile (p := isBlank) (l := tail),
        endsLine_append hafter hrest] at hends
      refine ⟨behind.takeWhile isBlank, tail.takeWhile isBlank, tail.dropWhile isBlank, ?_,
        fun c hc => List.mem_takeWhile_imp hc, hne, fun c hc => ?_, hafter, hrest, hends⟩
      · rw [List.takeWhile_append_dropWhile, ← htail, List.takeWhile_append_dropWhile, ← hbody,
          stripStart, List.takeWhile_append_dropWhile, hlabel]
      · simpa using List.mem_takeWhile_imp hc
    · cases hword
  · rintro ⟨blanks, after, rest, rfl, hblanks, hne, hword, hafter, hrest, hend⟩
    -- The word stops the blanks in front of it, and the blanks behind it stop the word.
    have hstart : (word ++ (after ++ rest)).head?.any isBlank = false := by
      obtain ⟨c, more, rfl⟩ := List.exists_cons_of_ne_nil hne
      exact hword c List.mem_cons_self
    have hstop : (after ++ rest).head?.any (!isBlank ·) = false := by
      cases after with
      | nil =>
        obtain rfl : rest = [] := by simpa using hend
        rfl
      | cons c after => simp [hafter c List.mem_cons_self]
    have hletters : ∀ c ∈ word, (!isBlank c) = true := fun c hc => by rw [hword c hc]; rfl
    have hdrop : dropInit? label (label ++ (blanks ++ (word ++ (after ++ rest)))) =
        some (blanks ++ (word ++ (after ++ rest))) := dropInit?_eq_some_iff.mpr rfl
    have hbody : stripStart (blanks ++ (word ++ (after ++ rest))) = word ++ (after ++ rest) :=
      (takeWhile_append_of_stop hblanks hstart).2
    obtain ⟨htake, hleft⟩ := takeWhile_append_of_stop hletters hstop
    rw [word?, hdrop, Option.bind_some, hbody]
    dsimp only
    rw [htake, hleft, (endsLine_append hafter hrest).mpr hend]
    simp [hne]

/-- A text starts with one entry at most. -/
theorem IsEntry.unique {cs word word' : List Char} (h : IsEntry cs word) (h' : IsEntry cs word') :
    word = word' :=
  Option.some_inj.mp ((word?_eq_some_iff.mpr h).symm.trans (word?_eq_some_iff.mpr h'))

/-- A search that starts at a position comes to the first entry from there on. -/
theorem findFrom?_first {cs : List Char} (more : List Char) (k : Nat) (hdrop : cs.drop k = more)
    {atStart : Bool} (hstart : atStart = true ↔ StartsLine cs k) :
    (findFrom? atStart more = none → ∀ i word, k ≤ i → ¬ EntryAt cs i word) ∧
    ∀ word, findFrom? atStart more = some word →
      ∃ i, EntryAt cs i word ∧ ∀ j word', k ≤ j → EntryAt cs j word' → i ≤ j := by
  induction more generalizing k atStart with
  | nil =>
    refine ⟨fun _ i word hi hentry => ?_, fun word h => nomatch h⟩
    obtain ⟨blanks, after, rest, hspelled, -⟩ := hentry.isEntry
    have hlen : cs.length ≤ k := List.drop_eq_nil_iff.mp hdrop
    rw [List.drop_eq_nil_of_le (by omega)] at hspelled
    exact absurd (List.append_eq_nil_iff.mp hspelled.symm).1 label_ne_nil
  | cons c more ih =>
    have hnext : cs.drop (k + 1) = more := by
      rw [← List.drop_drop, hdrop]
      rfl
    have hc : cs[k]? = some c := by
      rw [← List.head?_drop, hdrop]
      rfl
    have hline : (c == '\n') = true ↔ StartsLine cs (k + 1) := by
      simp [StartsLine, hc]
    obtain ⟨hnone, hsome⟩ := ih (k + 1) hnext hline
    -- What stands at this position, by the word that is read there.
    have hhere : ∀ word, EntryAt cs k word ↔ atStart = true ∧ word? (c :: more) = some word := by
      intro word
      rw [hstart, word?_eq_some_iff, ← hdrop]
      exact ⟨fun h => ⟨h.startsLine, h.isEntry⟩, fun h => ⟨h.1, h.2⟩⟩
    have hlater {i : Nat} {word : List Char} (hi : k ≤ i) (h : EntryAt cs i word)
        (hnot : ¬ EntryAt cs k word) : k + 1 ≤ i :=
      Nat.lt_of_le_of_ne hi fun he => hnot (he ▸ h)
    rw [findFrom?]
    cases hword : if atStart then word? (c :: more) else none with
    | some found =>
      have hentry : EntryAt cs k found := by
        rw [hhere]
        split at hword
        · next hs => exact ⟨hs, hword⟩
        · cases hword
      refine ⟨(nomatch ·), fun word h => ?_⟩
      cases h
      exact ⟨k, hentry, fun j word' hj _ => hj⟩
    | none =>
      have hnot : ∀ word, ¬ EntryAt cs k word := by
        intro word h
        obtain ⟨hs, hw⟩ := (hhere word).mp h
        rw [if_pos hs, hw] at hword
        cases hword
      refine ⟨fun h i word hi hentry => hnone h i word (hlater hi hentry (hnot word)) hentry,
        fun word h => ?_⟩
      obtain ⟨i, hentry, hfirst⟩ := hsome word h
      exact ⟨i, hentry, fun j word' hj hentry' =>
        hfirst j word' (hlater hj hentry' (hnot word')) hentry'⟩

theorem find?_first (cs : List Char) :
    (find? cs = none → ∀ i word, ¬ EntryAt cs i word) ∧
    ∀ word, find? cs = some word →
      ∃ i, EntryAt cs i word ∧ ∀ j word', EntryAt cs j word' → i ≤ j := by
  have hstart : true = true ↔ StartsLine cs 0 := iff_of_true rfl (Or.inl rfl)
  obtain ⟨hnone, hsome⟩ := findFrom?_first cs 0 List.drop_zero hstart
  refine ⟨fun h i word => hnone h i word (Nat.zero_le i), fun word h => ?_⟩
  obtain ⟨i, hentry, hfirst⟩ := hsome word h
  exact ⟨i, hentry, fun j word' => hfirst j word' (Nat.zero_le j)⟩

theorem find?_eq_none_iff (cs : List Char) :
    find? cs = none ↔ ∀ i word, ¬ EntryAt cs i word := by
  refine ⟨(find?_first cs).1, fun h => ?_⟩
  cases hfind : find? cs with
  | none => rfl
  | some word =>
    obtain ⟨i, hentry, -⟩ := (find?_first cs).2 word hfind
    exact absurd hentry (h i word)

/-- What is found is the word of the first entry. -/
theorem find?_eq_some_iff (cs word : List Char) :
    find? cs = some word ↔
      ∃ i, EntryAt cs i word ∧ ∀ j word', EntryAt cs j word' → i ≤ j := by
  refine ⟨(find?_first cs).2 word, fun ⟨i, hentry, hfirst⟩ => ?_⟩
  cases hfind : find? cs with
  | none => exact absurd hentry ((find?_first cs).1 hfind i word)
  | some found =>
    obtain ⟨j, hentry', hfirst'⟩ := (find?_first cs).2 found hfind
    obtain rfl : i = j := Nat.le_antisymm (hfirst j found hentry') (hfirst' i word hentry)
    rw [hentry'.isEntry.unique hentry.isEntry]

/-- What is found is a word. -/
theorem word_of_find? {cs word : List Char} (h : find? cs = some word) :
    word ≠ [] ∧ ∀ c ∈ word, isBlank c = false := by
  obtain ⟨i, hentry, -⟩ := (find?_eq_some_iff cs word).mp h
  obtain ⟨-, -, -, -, -, hne, hword, -⟩ := hentry.isEntry
  exact ⟨hne, hword⟩

/-! ### Text on further lines -/

/-- An entry stays one if the text goes on with another line. -/
theorem IsEntry.append_lf {cs word : List Char} (h : IsEntry cs word) (more : List Char) :
    IsEntry (cs ++ '\n' :: more) word := by
  obtain ⟨blanks, after, rest, rfl, hblanks, hne, hword, hafter, hrest, hend⟩ := h
  cases rest with
  | cons c rest =>
    refine ⟨blanks, after, c :: rest ++ '\n' :: more, by simp, hblanks, hne, hword, hafter, hrest,
      Or.inl (hend.resolve_right (List.cons_ne_nil c rest))⟩
  | nil =>
    -- The blanks behind the word go on in the new lines.
    refine ⟨blanks, after ++ ('\n' :: more).takeWhile isBlank, ('\n' :: more).dropWhile isBlank, ?_,
      hblanks, hne, hword, ?_, head?_dropWhile isBlank _, Or.inl ?_⟩
    · simp only [List.append_nil, List.append_assoc, List.takeWhile_append_dropWhile]
    · rw [List.forall_mem_append]
      exact ⟨hafter, fun c hc => List.mem_takeWhile_imp hc⟩
    · have hlf : isBlank '\n' = true := by decide
      simp [hlf]

/-- A label does not start inside another one, or in the blanks behind it. -/
theorem not_isPrefix_of_label {blanks front behind : List Char}
    (hblanks : ∀ c ∈ blanks, isBlank c = true) (hfront : front ≠ []) :
    ¬ front ++ (label ++ behind) <+: label ++ blanks := by
  rintro ⟨rest, h⟩
  obtain ⟨c, front, rfl⟩ := List.exists_cons_of_ne_nil hfront
  -- Only the first letter of a label and blanks is a `v`.
  have hlabel : label = 'v' :: "ersion:".toList := by decide
  have hmem : 'v' ∈ "ersion:".toList ++ blanks := by
    rw [hlabel] at h
    have htail : front ++ ('v' :: "ersion:".toList ++ behind) ++ rest =
        "ersion:".toList ++ blanks := (List.cons.inj h).2
    rw [← htail]
    simp
  rcases List.mem_append.mp hmem with hv | hv
  · exact absurd hv (by decide)
  · exact absurd (hblanks 'v' hv) (by decide)

/-- What looks like an entry once the text goes on with another line was one before, if there is a
label behind its own. -/
theorem IsEntry.of_append_lf {cs more word front behind : List Char}
    (h : IsEntry (cs ++ '\n' :: more) word) (hcs : cs = front ++ (label ++ behind))
    (hfront : front ≠ []) : IsEntry cs word := by
  obtain ⟨blanks, after, rest, hspelled, hblanks, hne, hword, hafter, hrest, hend⟩ := h
  rw [← List.append_assoc, List.append_eq_append_iff] at hspelled
  -- The text may end in the blanks, in the word, in the blanks behind it, or later.
  obtain ⟨a, hends, -⟩ | ⟨inWord, rfl, hspelled⟩ := hspelled
  · exact absurd ⟨a, hcs ▸ hends.symm⟩ (not_isPrefix_of_label hblanks hfront)
  obtain ⟨behindWord, rfl, hbehind⟩ | ⟨b, rfl, hlf⟩ := List.append_eq_append_iff.mp hspelled
  · obtain ⟨inRest, rfl, rfl⟩ | ⟨b, rfl, hlf⟩ := List.append_eq_append_iff.mp hbehind
    · cases inRest with
      | nil => exact absurd hrest (by simp [isBlank])
      | cons c inRest =>
        refine ⟨blanks, after, c :: inRest, by simp, hblanks, hne, hword, hafter, hrest,
          Or.inl (hend.resolve_right (by simp))⟩
    · rw [List.forall_mem_append] at hafter
      exact ⟨blanks, behindWord, [], by simp, hblanks, hne, hword, hafter.1, rfl, Or.inr rfl⟩
  · cases b with
    | nil =>
      rw [List.append_nil] at hne hword ⊢
      exact ⟨blanks, [], [], by simp, hblanks, hne, hword, by simp, rfl, Or.inr rfl⟩
    | cons c b =>
      obtain rfl : '\n' = c := (List.cons.inj hlf).1
      exact absurd (hword '\n' (by simp)) (by decide)

theorem EntryAt.lt_length {cs word : List Char} {i : Nat} (h : EntryAt cs i word) :
    i < cs.length := by
  obtain ⟨blanks, after, rest, hspelled, -⟩ := h.isEntry
  by_contra hle
  rw [List.drop_eq_nil_of_le (Nat.le_of_not_lt hle)] at hspelled
  exact label_ne_nil (List.append_eq_nil_iff.mp hspelled.symm).1

theorem EntryAt.append_lf {cs word : List Char} {i : Nat} (h : EntryAt cs i word)
    (more : List Char) : EntryAt (cs ++ '\n' :: more) i word := by
  have hlt := h.lt_length
  constructor
  · refine h.startsLine.imp_right fun hline => ?_
    rwa [List.getElem?_append_left (by omega)]
  · rw [List.drop_append_of_le_length (Nat.le_of_lt hlt)]
    exact h.isEntry.append_lf more

/-- No entry appears in front of another one if the text goes on with another line. -/
theorem EntryAt.of_append_lf {cs more word word' : List Char} {i j : Nat}
    (h : EntryAt (cs ++ '\n' :: more) j word) (h' : EntryAt cs i word') (hlt : j < i) :
    EntryAt cs j word := by
  have hlen := h'.lt_length
  obtain ⟨blanks, after, rest, hspelled, -⟩ := h'.isEntry
  have hback : cs.drop j = (cs.drop j).take (i - j) ++ cs.drop i := by
    have hdrop : (cs.drop j).drop (i - j) = cs.drop i := by
      rw [List.drop_drop, Nat.add_sub_cancel' (Nat.le_of_lt hlt)]
    rw [← hdrop, List.take_append_drop]
  have hfront : (cs.drop j).take (i - j) ≠ [] := by
    rw [← List.length_pos_iff, List.length_take, List.length_drop]
    omega
  constructor
  · refine h.startsLine.imp_right fun hline => ?_
    rwa [List.getElem?_append_left (by omega)] at hline
  · have hentry := h.isEntry
    rw [List.drop_append_of_le_length (by omega)] at hentry
    exact hentry.of_append_lf (hspelled ▸ hback) hfront

/-- What is found stays if the text goes on with another line. -/
theorem find?_append_lf {cs word : List Char} (h : find? cs = some word) (more : List Char) :
    find? (cs ++ '\n' :: more) = some word := by
  obtain ⟨i, hentry, hfirst⟩ := (find?_eq_some_iff cs word).mp h
  refine (find?_eq_some_iff _ word).mpr ⟨i, hentry.append_lf more, fun j word' hentry' => ?_⟩
  by_contra hlt
  exact hlt (hfirst j word' (hentry'.of_append_lf hentry (Nat.lt_of_not_le hlt)))

/-- **The version is the word of the first entry.**  A search for the pattern keeps one word, and
this is what is found.  It is the word of the first position where an entry stands, and nothing is
found if there is none.  The word is not empty and has no blanks, and it stays the same if the text
goes on with further lines. -/
theorem finds_first_entry (cs : List Char) :
    search pattern cs = (find? cs).map ([·]) ∧
    (∀ word, find? cs = some word ↔
      ∃ i, EntryAt cs i word ∧ ∀ j word', EntryAt cs j word' → i ≤ j) ∧
    (find? cs = none ↔ ∀ i word, ¬ EntryAt cs i word) ∧
    ∀ word, find? cs = some word →
      word ≠ [] ∧ (∀ c ∈ word, isBlank c = false) ∧
        ∀ more, find? (cs ++ '\n' :: more) = some word := by
  refine ⟨search_pattern cs, find?_eq_some_iff cs, find?_eq_none_iff cs, fun word h => ?_⟩
  exact ⟨(word_of_find? h).1, (word_of_find? h).2, find?_append_lf h⟩

/-- Something else stands behind the first word, so the entry on the next line counts.  Its word is
on a later line, and stays the version if another entry follows. -/
theorem finds_first_entry_later :
    find? "version: 1 beta\nversion:\n 0.7.2 \t".toList = some "0.7.2".toList ∧
      find? ("version: 1 beta\nversion:\n 0.7.2 \t".toList ++ '\n' :: "version: 9".toList) =
        some "0.7.2".toList := by
  have h : find? "version: 1 beta\nversion:\n 0.7.2 \t".toList = some "0.7.2".toList := by cbv
  exact ⟨h, ((finds_first_entry _).2.2.2 _ h).2.2 _⟩

end VersionEntry
end LintGate
