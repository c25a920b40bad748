import LintGate.Proofs.Toml.Growth
import LintGate.Proofs.Toml.Written

/-!
# A document with more in it

Lines are added to a document that was written.  Each of them is read as before: what stands in
front of it and behind it may add entries, but it takes none away.  Only a line that opens a table
must not come between a heading and its assignments.

## Main definitions

* `IsLines`, `IsKeyLines` — whole lines, and whole lines that open no table.
* `Extends` — a text with some parts and more.
* `assignments` — the assignments of some parts, and the headings above them.

## Main results

* `Extends.below?_eq` — every assignment stands below its heading still.
-/

namespace LintGate
namespace Toml

open Lexer Reader

/-! ### Whole lines -/

/-- What the rest of a document comes to where a line may start. -/
def readOn (x : Entries × KeyPath) (cs : List Char) : Option Entries :=
  (Lexer.run .ready cs).bind fun ts => ((atLine x.1 x.2).run ts).bind finish

theorem document?_eq_readOn (cs : List Char) : document? cs = readOn ([], []) (withoutMark cs) := rfl

/-- Whole lines of some document. -/
def IsLines (cs : List Char) : Prop :=
  ∃ ts, ∃ x y : Entries × KeyPath, scan .ready cs = some (ts, .ready) ∧
    (atLine x.1 x.2).run ts = some (atLine y.1 y.2)

/-- Whole lines that open no table: they may stand in front of all headings. -/
def IsKeyLines (cs : List Char) : Prop :=
  ∃ ts root root', scan .ready cs = some (ts, .ready) ∧
    (atLine root []).run ts = some (atLine root' [])

variable {cs rest : List Char} {ts : List Token} {x y : Entries × KeyPath} {es : Entries}
  {e : Entries × KeyPath → Option (Entries × KeyPath)} {parts : List Part}

theorem readOn_append (hscan : scan .ready cs = some (ts, .ready))
    (hrun : (atLine x.1 x.2).run ts = (e x).map fun y => atLine y.1 y.2) (rest : List Char) :
    readOn x (cs ++ rest) = (e x).bind (readOn · rest) := by
  rw [readOn, Lexer.run_append, hscan, Option.bind_some, Option.bind_map]
  cases hrest : Lexer.run .ready rest with
  | none => cases e x <;> simp [readOn, hrest]
  | some us =>
    simp only [Option.bind_some, Function.comp_apply, Reader.run_append, hrun, Option.bind_map]
    cases e x with
    | none => rfl
    | some y => simp [readOn, hrest]

/-- What tokens do between two lines. -/
theorem exists_effect (hrun : (atLine x.1 x.2).run ts = some (atLine y.1 y.2)) :
    ∃ e, Effect e ∧ e x = some y ∧
      ∀ z, (atLine z.1 z.2).run ts = (e z).map fun y => atLine y.1 y.2 := by
  rcases uniform_run {} ts with hnone | ⟨e, s, he, hall⟩
  · have hx := hnone x
    change (atLine x.1 x.2).run ts = none at hx
    rw [hx] at hrun
    cases hrun
  · have hx := hall x
    change (atLine x.1 x.2).run ts = _ at hx
    rw [hrun] at hx
    obtain ⟨y', hy', hat⟩ := Option.map_eq_some_iff.mp hx.symm
    obtain ⟨stack, key, phase⟩ := s
    obtain ⟨root, table⟩ := y'
    obtain ⟨root', table'⟩ := y
    cases hat
    exact ⟨e, he, hy', hall⟩

theorem IsLines.exists_effect (h : IsLines cs) :
    ∃ e, Effect e ∧ ∀ x rest, readOn x (cs ++ rest) = (e x).bind (readOn · rest) := by
  obtain ⟨ts, x, y, hscan, hrun⟩ := h
  obtain ⟨e, he, -, hall⟩ := Toml.exists_effect hrun
  exact ⟨e, he, fun z rest => readOn_append hscan (hall z) rest⟩

/-- Lines that may stand in front of all headings leave the table open that is. -/
theorem IsKeyLines.exists_effect (h : IsKeyLines cs) :
    ∃ e, Effect e ∧ (∀ x y, e x = some y → y.2 = x.2) ∧
      ∀ x rest, readOn x (cs ++ rest) = (e x).bind (readOn · rest) := by
  obtain ⟨ts, root, root', hscan, hrun⟩ := h
  obtain ⟨e, he, hx, hall⟩ := Toml.exists_effect (x := (root, [])) (y := (root', [])) hrun
  refine ⟨e, he, ?_, fun z rest => readOn_append hscan (hall z) rest⟩
  rcases he.table_cases with hstay | hopen
  · exact hstay
  · exact absurd rfl (hopen _ _ hx)

/-- What a part does is one of the things that lines do. -/
theorem Part.effect (p : Part) : Effect p.apply := by
  cases p with
  | heading name => exact .heading false name []
  | line key value => exact .assign [key] value.value

theorem Part.readOn_append {p : Part} (h : IsBareKey p.name) (x : Entries × KeyPath)
    (rest : List Char) : readOn x (p.written ++ rest) = (p.apply x).bind (readOn · rest) := by
  have hscan : scan .ready p.written = some (p.tokens, .ready) := by
    rw [← List.append_nil p.written, Part.scan_written h]
    simp [scan, prefixed]
  exact Toml.readOn_append hscan (Part.run_tokens h x.1 x.2) rest

/-- The rest of a document keeps the entries. -/
theorem keeps_of_readOn (h : readOn x cs = some es) : x.1.Keeps es := by
  obtain ⟨ts, -, h⟩ := Option.bind_eq_some_iff.mp h
  obtain ⟨r, hr, h⟩ := Option.bind_eq_some_iff.mp h
  exact ((uniform_run {} ts).keeps hr).trans (keeps_of_finish h)

/-! ### Documents with more in them -/

/-- A text that has some parts, in their order, and more lines. -/
inductive Extends : List Part → List Char → Prop
  /-- Behind all parts anything may stand. -/
  | rest (cs : List Char) : Extends [] cs
  | part {p : Part} {parts : List Part} {cs : List Char} (h : Extends parts cs) :
    Extends (p :: parts) (p.written ++ cs)
  | keys {parts : List Part} {new cs : List Char} (hnew : IsKeyLines new)
    (h : Extends parts cs) : Extends parts (new ++ cs)
  /-- A table may be added in front of a heading. -/
  | tables {name : List Char} {parts : List Part} {new cs : List Char} (hnew : IsLines new)
    (h : Extends (.heading name :: parts) cs) : Extends (.heading name :: parts) (new ++ cs)

/-- A document extends its parts. -/
theorem extends_written (parts : List Part) : Extends parts (written parts) := by
  induction parts with
  | nil => exact .rest _
  | cons p parts ih => exact .part ih

/-- The assignments of some parts below a heading that was read, with the headings above them. -/
def assignments : Option (List Char) → List Part → List (List Char × List Char × Plain)
  | _, [] => []
  | _, .heading name :: parts => assignments (some name) parts
  | some name, .line key p :: parts => (name, key, p) :: assignments (some name) parts
  | none, .line _ _ :: parts => assignments none parts

theorem assignments_tableParts (heading : Option (List Char))
    (t : List Char × List (List Char × Plain)) (parts : List Part) :
    assignments heading (tableParts t ++ parts) =
      t.2.map (fun l => (t.1, l.1, l.2)) ++ assignments (some t.1) parts := by
  obtain ⟨name, lines⟩ := t
  rw [tableParts, List.cons_append, assignments]
  induction lines with
  | nil => rfl
  | cons l lines ih => rw [List.map_cons, List.cons_append, assignments, ih, List.map_cons,
      List.cons_append]

theorem mem_assignments {tables : List (List Char × List (List Char × Plain))}
    {t : List Char × List (List Char × Plain)} (ht : t ∈ tables) {l : List Char × Plain}
    (hl : l ∈ t.2) (heading : Option (List Char)) :
    (t.1, l.1, l.2) ∈ assignments heading (tables.flatMap tableParts) := by
  induction tables generalizing heading with
  | nil => cases ht
  | cons t' tables ih =>
    rw [List.flatMap_cons, assignments_tableParts, List.mem_append]
    rcases List.mem_cons.mp ht with rfl | ht
    · exact Or.inl (List.mem_map.mpr ⟨l, hl, rfl⟩)
    · exact Or.inr (ih ht _)

/-- The table of a heading that was read is open. -/
def IsOpen (heading : Option (List Char)) (x : Entries × KeyPath) : Prop :=
  ∀ name, heading = some name → x.2 = [name] ∧ ∃ form inner, x.1.get? name = some (.table form inner)

variable {heading : Option (List Char)}

theorem isOpen_none (x : Entries × KeyPath) : IsOpen none x := by
  intro name hname
  cases hname

theorem IsOpen.of_keeps (h : IsOpen heading x) (hkeeps : x.1.Keeps y.1) (htable : y.2 = x.2) :
    IsOpen heading y := by
  intro name hname
  obtain ⟨hx, form, inner, hget⟩ := h name hname
  obtain ⟨w, hw, form', inner', rfl⟩ := hkeeps [] name _ hget
  exact ⟨htable.trans hx, form', inner', hw⟩

theorem isOpen_of_heading {name : List Char} (h : (Part.heading name).apply x = some y) :
    IsOpen (some name) y := by
  obtain ⟨root, hroot, rfl⟩ := Option.map_eq_some_iff.mp h
  intro name' hname
  cases hname
  refine ⟨rfl, ?_⟩
  unfold Entries.openTable at hroot
  split at hroot
  · cases hroot
    exact ⟨_, _, by rw [Entries.get?_set, if_pos rfl]⟩
  · cases hroot
    exact ⟨_, _, by rw [Entries.get?_set, if_pos rfl]⟩
  · cases hroot

/-- An assignment makes its entry in the table that is open. -/
theorem below?_of_line {name key : List Char} {p : Plain} (hopen : IsOpen (some name) x)
    (h : (Part.line key p).apply x = some y) : y.1.below? key [name] = some p.value := by
  obtain ⟨root, table⟩ := x
  obtain ⟨rfl, form, inner, hget⟩ := hopen name rfl
  obtain ⟨root', hroot, rfl⟩ := Option.map_eq_some_iff.mp h
  rw [Entries.within, hget] at hroot
  obtain ⟨inner', hinner, rfl⟩ := Option.map_eq_some_iff.mp hroot
  have hadd : Entries.add? key p.value inner = some inner' := hinner
  unfold Entries.add? at hadd
  split at hadd
  · cases hadd
  · cases hadd
    rw [Entries.below?_cons_of_table (by rw [Entries.get?_set, if_pos rfl]), Entries.below?,
      Entries.get?_set, if_pos rfl]

theorem Plain.eq_of_stays {p : Plain} {v : Value} (h : p.value.Stays v) : v = p.value := by
  cases p with
  | text cs => exact h
  | list items => exact h

/-- **Every assignment stands below its heading still**, whatever was added. -/
theorem Extends.below?_eq (h : Extends parts cs) (hbare : ∀ p ∈ parts, IsBareKey p.name)
    (hopen : IsOpen heading x) (hread : readOn x cs = some es) :
    ∀ a ∈ assignments heading parts, es.below? a.2.1 [a.1] = some a.2.2.value := by
  induction h generalizing x heading with
  | rest cs => simp [assignments]
  | @part p parts cs h ih =>
    rw [Part.readOn_append (hbare p List.mem_cons_self)] at hread
    obtain ⟨y, hy, hnext⟩ := Option.bind_eq_some_iff.mp hread
    have hrest : ∀ q ∈ parts, IsBareKey q.name := fun q hq => hbare q (List.mem_cons_of_mem p hq)
    have hkeeps := p.effect.keeps hy
    cases p with
    | heading name => exact ih hrest (isOpen_of_heading hy) hnext
    | line key value =>
      have htable : y.2 = x.2 := by
        obtain ⟨root, -, rfl⟩ := Option.map_eq_some_iff.mp hy
        rfl
      have hlater := ih hrest (hopen.of_keeps hkeeps htable) hnext
      cases heading with
      | none => exact hlater
      | some name =>
        intro a ha
        rcases List.mem_cons.mp ha with rfl | ha
        · obtain ⟨v, hv, hstays⟩ := keeps_of_readOn hnext [name] key _ (below?_of_line hopen hy)
          rw [hv, Plain.eq_of_stays hstays]
        · exact hlater a ha
  | keys hnew h ih =>
    obtain ⟨e, he, htable, hreadOn⟩ := hnew.exists_effect
    rw [hreadOn] at hread
    obtain ⟨y, hy, hread⟩ := Option.bind_eq_some_iff.mp hread
    exact ih hbare (hopen.of_keeps (he.keeps hy) (htable x y hy)) hread
  | @tables name parts new cs hnew h ih =>
    obtain ⟨e, he, hreadOn⟩ := hnew.exists_effect
    rw [hreadOn] at hread
    obtain ⟨y, hy, hread⟩ := Option.bind_eq_some_iff.mp hread
    -- the heading that follows opens its table, whichever was open
    have hlater := ih hbare (isOpen_none y) hread
    exact hlater

end Toml
end LintGate
