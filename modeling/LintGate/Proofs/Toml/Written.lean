import LintGate.Proofs.Text.Lines
import LintGate.Proofs.Toml.Entries
import LintGate.Proofs.Toml.Lexer
import LintGate.Proofs.Toml.Number
import LintGate.Toml.Document

/-!
# A document that was written is read again

A document is written as headings and assignments, each on a line of its own.  Wherever a line
may start, a heading opens its table and an assignment makes one entry, whatever was read before
and whatever follows.  So a document is read part by part.

## Main definitions

* `Item`, `Plain` — strings and numbers, and the values of assignments.
* `Part`, `written` — headings and assignments, and the document of some of them.
* `Part.apply` — what a part does to the entries so far.

## Main results

* `Part.scan_written`, `Part.run_tokens` — a part is read on its own.
* `document?_written` — a document is read part by part.
-/

namespace LintGate
namespace Toml

open Text

/-! ### Writing -/

/-- A string, or a number without a sign. -/
inductive Item
  | text (cs : List Char)
  | number (n : Nat)

/-- The value of an assignment: a string, or a list. -/
inductive Plain
  | text (cs : List Char)
  | list (items : List Item)

/-- A line of a document. -/
inductive Part
  | heading (name : List Char)
  | line (key : List Char) (value : Plain)

namespace Item

def written : Item → List Char
  | text cs => quoted cs
  | number n => Nat.toDigits 10 n

def token : Item → Token
  | text cs => .text true cs
  | number n => .atom (Nat.toDigits 10 n)

def value : Item → Value
  | text cs => .text cs
  | number n => .scalar (.integer n)

end Item

namespace Plain

def written : Plain → List Char
  | text cs => quoted cs
  | list items => '[' :: (joinWith [',', ' '] (items.map Item.written) ++ [']'])

/-- The tokens of items, with a comma and a blank between each two. -/
def separated : List Item → List Token
  | [] => []
  | [i] => [i.token]
  | i :: j :: is => i.token :: .comma :: .blank [' '] :: separated (j :: is)

def tokens : Plain → List Token
  | text cs => [.text true cs]
  | list items => .openBracket :: (separated items ++ [.closeBracket])

def value : Plain → Value
  | text cs => .text cs
  | list items => .array (items.map Item.value)

end Plain

namespace Part

def written : Part → List Char
  | heading name => '[' :: (name ++ [']', '\n'])
  | line key p => key ++ ([' ', '=', ' '] ++ (p.written ++ ['\n']))

def tokens : Part → List Token
  | heading name => [.openBracket, .atom name, .closeBracket, .newline]
  | line key p =>
    [.atom key, .blank [' '], .equals, .blank [' ']] ++ (p.tokens ++ [.newline])

/-- What a part does to the entries so far and the table that is open. -/
def apply : Part → Entries × KeyPath → Option (Entries × KeyPath)
  | heading name, (root, _) => (Entries.openTable name .header root).map (·, [name])
  | line key p, (root, table) =>
    (Entries.within (Entries.assign .header [key] p.value) table root).map (·, table)

/-- The name or the key of a part. -/
def name : Part → List Char
  | heading name => name
  | line key _ => key

end Part

/-- The document of some parts. -/
def written (parts : List Part) : List Char := parts.flatMap Part.written

/-- A key that is written without quotes. -/
structure IsBareKey (key : List Char) : Prop where
  ne_nil : key ≠ []
  isBare_eq : ∀ c ∈ key, Reader.isBare c = true

/-! ### Tokens -/

theorem endsAtom_of_isBare {c : Char} (h : Reader.isBare c = true) :
    Lexer.endsAtom c = false := by
  have hne : ∀ {d}, Reader.isBare d = false → c ≠ d := by
    rintro d hd rfl
    rw [h] at hd
    cases hd
  have hmark : Lexer.punctuation? c = none := by
    unfold Lexer.punctuation?
    split
    case h_8 => rfl
    all_goals exact absurd rfl (hne (by decide))
  simp [Lexer.endsAtom, Lexer.isLineBlank, hmark, hne (d := ' ') (by decide),
    hne (d := '\t') (by decide), hne (d := '\n') (by decide), hne (d := '\r') (by decide),
    hne (d := '#') (by decide), hne (d := '"') (by decide), hne (d := '\'') (by decide)]

theorem IsBareKey.isWord {key : List Char} (h : IsBareKey key) : Lexer.IsWord key :=
  ⟨h.ne_nil, fun c hc => endsAtom_of_isBare (h.isBare_eq c hc)⟩

theorem isWord_toDigits (n : Nat) : Lexer.IsWord (Nat.toDigits 10 n) := by
  refine ⟨Nat.toDigits_ne_nil, fun c hc => endsAtom_of_isBare ?_⟩
  have hdigit : c.isDigit = true := Nat.isDigit_of_mem_toDigits (by decide) (by decide) hc
  simp [Reader.isBare, Char.isAlphanum, hdigit]

open Lexer

/-- An item is one token in front of a comma or a bracket. -/
theorem Item.scan_written (i : Item) {c : Char} (hc : c = ',' ∨ c = ']') (rest : List Char) :
    scan .ready (i.written ++ c :: rest) =
      (scan .ready (c :: rest)).map (prefixed [i.token]) := by
  cases i with
  | text cs => exact scan_quoted cs (by rcases hc with rfl | rfl <;> decide) rest
  | number n => exact scan_word (isWord_toDigits n) (by rcases hc with rfl | rfl <;> decide)

/-- No item starts with a blank. -/
theorem Item.exists_written_eq (i : Item) :
    ∃ c cs, i.written = c :: cs ∧ isLineBlank c = false := by
  cases i with
  | text cs => exact ⟨'"', _, rfl, by decide⟩
  | number n =>
    have hword := isWord_toDigits n
    obtain ⟨c, cs, h⟩ := List.exists_cons_of_ne_nil hword.ne_nil
    have hc := hword.endsAtom_eq c (by rw [h]; exact List.mem_cons_self)
    refine ⟨c, cs, h, Bool.eq_false_iff.mpr fun hblank => ?_⟩
    simp [endsAtom, hblank] at hc

theorem exists_joinWith_eq (s : List Char) (c : Char) (cs : List Char) (ps : List (List Char)) :
    ∃ more, joinWith s ((c :: cs) :: ps) = c :: more := by
  cases ps with
  | nil => exact ⟨cs, rfl⟩
  | cons p ps => exact ⟨_, rfl⟩

theorem Plain.scan_separated (items : List Item) (rest : List Char) :
    scan .ready (joinWith [',', ' '] (items.map Item.written) ++ ']' :: rest) =
      (scan .ready (']' :: rest)).map (prefixed (separated items)) := by
  induction items with
  | nil => simp [separated, prefixed_nil]
  | cons i items ih =>
    cases items with
    | nil => exact i.scan_written (Or.inr rfl) rest
    | cons j items =>
      -- the comma ends the item, and the next item ends the blank
      obtain ⟨c, cs, hwritten, hc⟩ := j.exists_written_eq
      obtain ⟨more, hmore⟩ := exists_joinWith_eq [',', ' '] c cs (items.map Item.written)
      rw [List.map_cons, hwritten, hmore, List.cons_append] at ih
      rw [List.map_cons, List.map_cons, joinWith_cons_cons, hwritten, hmore, List.append_assoc,
        List.append_assoc, List.cons_append, List.singleton_append, List.cons_append,
        i.scan_written (Or.inl rfl), scan_mark (t := .comma) rfl, scan_space hc, ih]
      simp only [Option.map_map, prefixed_comp]
      rfl

/-- A value is read up to the end of its line. -/
theorem Plain.scan_written (p : Plain) (rest : List Char) :
    scan .ready (p.written ++ '\n' :: rest) =
      (scan .ready rest).map (prefixed (p.tokens ++ [.newline])) := by
  cases p with
  | text cs =>
    rw [written, scan_quoted cs (by decide), scan_newline, Option.map_map, prefixed_comp]
    rfl
  | list items =>
    rw [written, List.cons_append, List.append_assoc, List.singleton_append,
      scan_mark (t := .openBracket) rfl, scan_separated, scan_mark (t := .closeBracket) rfl,
      scan_newline]
    simp only [Option.map_map, prefixed_comp, tokens]
    simp

/-- No value starts with a blank. -/
theorem Plain.exists_written_eq (p : Plain) :
    ∃ c cs, p.written = c :: cs ∧ isLineBlank c = false := by
  cases p with
  | text cs => exact ⟨'"', _, rfl, by decide⟩
  | list items => exact ⟨'[', _, rfl, by decide⟩

/-- **The tokens of a part**, whatever follows it. -/
theorem Part.scan_written {p : Part} (h : IsBareKey p.name) (rest : List Char) :
    scan .ready (p.written ++ rest) = (scan .ready rest).map (prefixed p.tokens) := by
  have hword := h.isWord
  cases p with
  | heading name =>
    rw [Part.name] at hword
    rw [written, List.cons_append, List.append_assoc, List.cons_append, List.singleton_append,
      scan_mark (t := .openBracket) rfl, scan_word hword rfl,
      scan_mark (t := .closeBracket) rfl, scan_newline]
    simp only [Option.map_map, prefixed_comp]
    rfl
  | line key p =>
    obtain ⟨c, cs, hwritten, hc⟩ := p.exists_written_eq
    have hvalue := p.scan_written rest
    rw [hwritten, List.cons_append] at hvalue
    rw [written, hwritten]
    simp only [List.append_assoc, List.cons_append, List.nil_append]
    rw [Part.name] at hword
    rw [scan_word hword rfl, scan_space rfl, scan_mark (t := .equals) rfl, scan_space hc, hvalue]
    simp only [Option.map_map, prefixed_comp]
    rfl

/-! ### Reading -/

namespace Reader

/-- Where a line may start. -/
def atLine (root : Entries) (table : KeyPath) : Reader := { root, table }

/-- Reads some tokens. -/
def run (r : Reader) (ts : List Token) : Option Reader := ts.foldlM step r

variable {r r' : Reader} {t : Token} {ts : List Token}

theorem run_cons (r : Reader) (t : Token) (ts : List Token) :
    r.run (t :: ts) = (r.step t).bind (run · ts) := List.foldlM_cons

theorem run_append (r : Reader) (ts us : List Token) :
    r.run (ts ++ us) = (r.run ts).bind (run · us) := List.foldlM_append

theorem run_cons_cons (r : Reader) (t u : Token) (ts : List Token) :
    r.run (t :: u :: ts) = ((r.step t).bind (·.step u)).bind (run · ts) := by
  rw [run_cons, Option.bind_assoc]
  exact congrArg (Option.bind _) (funext fun r => run_cons r u ts)

theorem run_singleton (r : Reader) (t : Token) : r.run [t] = r.step t := by
  rw [run_cons]
  exact Option.bind_fun_some _

theorem run_cons_of_step (h : r.step t = some r') : r.run (t :: ts) = r'.run ts := by
  rw [run_cons, h, Option.bind_some]

/-- In a list that has some items already, last first. -/
def inList (r : Reader) (items : List Value) (phase : Phase) : Reader :=
  { r with stack := .array items :: r.stack, phase }

theorem closeArray_inList (r : Reader) (items : List Value) (phase : Phase) :
    (r.inList items phase).closeArray = r.complete (.array items.reverse) := by
  -- what is due after a value does not depend on what was due before
  have hphase : ∀ v, complete { r with phase } v = r.complete v := fun v => by
    obtain ⟨root, table, stack, key, _⟩ := r
    match stack with
    | [] | .array _ :: _ | .inline _ _ :: _ => rfl
  exact hphase _

end Reader

open Reader

/-- An item is complete where a comma or a bracket follows. -/
theorem Item.step_token (i : Item) (r : Reader) (items : List Value) {u : Token}
    (hu : u = .comma ∨ u = .closeBracket) :
    ((r.inList items .item).step i.token).bind (·.step u) =
      (r.inList (i.value :: items) .done).afterValue u := by
  cases i with
  | text cs => rcases hu with rfl | rfl <;> rfl
  | number n =>
    have hread : ((r.inList items (.scalar (Nat.toDigits 10 n).reverse)).endScalar
        (Nat.toDigits 10 n).reverse) = some (r.inList (.scalar (.integer n) :: items) .done) := by
      rw [endScalar, List.reverse_reverse, Scalar.ofText?_toDigits, Option.bind_some]
      rfl
    have hstep : ∀ u, u = .comma ∨ u = .closeBracket →
        ((r.inList items .item).step (.atom (Nat.toDigits 10 n))).bind (·.step u) =
          ((r.inList items (.scalar (Nat.toDigits 10 n).reverse)).endScalar
            (Nat.toDigits 10 n).reverse).bind (·.afterValue u) := by
      rintro u (rfl | rfl) <;> rfl
    rw [Item.token, hstep u hu, hread, Option.bind_some]
    rfl

/-- The items of a list are read one after the other, and the list is complete. -/
theorem Plain.run_separated (r : Reader) (is : List Item) (items : List Value) :
    (r.inList items .item).run (separated is ++ [.closeBracket]) =
      r.complete (.array (items.reverse ++ is.map Item.value)) := by
  induction is generalizing items with
  | nil =>
    have hclose : (r.inList items .item).step .closeBracket = (r.inList items .item).closeArray :=
      rfl
    rw [separated, List.nil_append, run_singleton, hclose, closeArray_inList, List.map_nil,
      List.append_nil]
  | cons i is ih =>
    cases is with
    | nil =>
      have hclose : (r.inList (i.value :: items) .done).afterValue .closeBracket =
          (r.inList (i.value :: items) .done).closeArray := rfl
      rw [separated, List.singleton_append, run_cons_cons, i.step_token r items (Or.inr rfl), hclose,
        closeArray_inList, List.reverse_cons]
      exact Option.bind_fun_some _
    | cons j is =>
      have hcomma : (r.inList (i.value :: items) .done).afterValue .comma =
          some (r.inList (i.value :: items) .item) := rfl
      have hblank : (r.inList (i.value :: items) .item).step (.blank [' ']) =
          some (r.inList (i.value :: items) .item) := rfl
      rw [separated, List.cons_append, List.cons_append, List.cons_append, run_cons_cons,
        i.step_token r items (Or.inl rfl), hcomma, Option.bind_some, run_cons_of_step hblank, ih,
        List.reverse_cons, List.append_assoc]
      rfl

variable {root : Entries} {table : KeyPath}

/-- The value of an assignment is complete once its tokens are read. -/
theorem Plain.run_tokens (p : Plain) (key : KeyPath) :
    run { atLine root table with key, phase := .value } p.tokens =
      (Entries.within (Entries.assign .header key p.value) table root).map fun root =>
        { atLine root table with phase := .done } := by
  cases p with
  | text cs => exact run_singleton _ _
  | list items =>
    have hopen : step { atLine root table with key, phase := .value } .openBracket =
        some (inList { atLine root table with key, phase := .value } [] .item) := rfl
    rw [tokens, run_cons_of_step hopen, run_separated]
    rfl

/-- The key of a line, and the name in a heading. -/
theorem step_key {key : List Char} (h : IsBareKey key) :
    (atLine root table).step (.atom key) =
        some { atLine root table with phase := .keyEnd .line [key] } ∧
      step { atLine root table with phase := .header } (.atom key) =
        some { atLine root table with phase := .keyEnd (.header false) [key] } := by
  have hkey : keyPart? (.atom key) = some key := by
    rw [keyPart?, if_pos (List.all_eq_true.mpr h.isBare_eq)]
  have hstep : ∀ place, (keyPart? (.atom key)).map (fun k =>
      { atLine root table with phase := .keyEnd place [k] }) =
        some { atLine root table with phase := .keyEnd place [key] } := fun place => by
    rw [hkey, Option.map_some]
  exact ⟨hstep .line, hstep (.header false)⟩

/-- **What a part does**, wherever a line may start. -/
theorem Part.run_tokens {p : Part} (h : IsBareKey p.name) (root : Entries) (table : KeyPath) :
    (atLine root table).run p.tokens = (p.apply (root, table)).map fun r => atLine r.1 r.2 := by
  cases p with
  | heading name =>
    have hname : IsBareKey name := h
    have hopen : (atLine root table).step .openBracket =
        some { atLine root table with phase := .header } := rfl
    have hclose : step { atLine root table with phase := .keyEnd (.header false) [name] }
        .closeBracket = (Entries.openTable name .header root).map fun root =>
          { atLine root [name] with phase := .done } := rfl
    rw [tokens, run_cons_of_step hopen, run_cons_of_step (step_key hname).2, run_cons, hclose, apply,
      Option.map_map, Option.bind_map]
    cases Entries.openTable name .header root with
    | none => rfl
    | some root => rfl
  | line key p =>
    have hkey : IsBareKey key := h
    have hblank : step { atLine root table with phase := .keyEnd .line [key] } (.blank [' ']) =
        some { atLine root table with phase := .keyEnd .line [key] } := rfl
    have hequals : step { atLine root table with phase := .keyEnd .line [key] } .equals =
        some { atLine root table with key := [key], phase := .value } := rfl
    have hblank' : step { atLine root table with key := [key], phase := .value } (.blank [' ']) =
        some { atLine root table with key := [key], phase := .value } := rfl
    rw [tokens, List.cons_append, run_cons_of_step (step_key hkey).1, List.cons_append,
      run_cons_of_step hblank, List.cons_append, run_cons_of_step hequals, List.singleton_append,
      run_cons_of_step hblank', Reader.run_append, p.run_tokens, apply, Option.map_map,
      Option.bind_map]
    cases Entries.within (Entries.assign .header [key] p.value) table root with
    | none => rfl
    | some root => rfl

/-! ### Documents -/

/-- What some parts do, one after the other. -/
def applyAll (parts : List Part) (r : Entries × KeyPath) : Option (Entries × KeyPath) :=
  parts.foldlM (fun r (p : Part) => p.apply r) r

theorem applyAll_cons (p : Part) (parts : List Part) (r : Entries × KeyPath) :
    applyAll (p :: parts) r = (p.apply r).bind (applyAll parts) := List.foldlM_cons

theorem applyAll_append (parts more : List Part) (r : Entries × KeyPath) :
    applyAll (parts ++ more) r = (applyAll parts r).bind (applyAll more) := List.foldlM_append

theorem scan_written {parts : List Part} (h : ∀ p ∈ parts, IsBareKey p.name) (rest : List Char) :
    scan .ready (written parts ++ rest) =
      (scan .ready rest).map (prefixed (parts.flatMap Part.tokens)) := by
  induction parts with
  | nil => simp [written, prefixed_nil]
  | cons p parts ih =>
    rw [written, List.flatMap_cons, List.append_assoc,
      Part.scan_written (h p List.mem_cons_self), ← written,
      ih fun q hq => h q (List.mem_cons_of_mem p hq), Option.map_map, prefixed_comp,
      List.flatMap_cons]

theorem run_flatMap_tokens {parts : List Part} (h : ∀ p ∈ parts, IsBareKey p.name)
    (r : Entries × KeyPath) : (atLine r.1 r.2).run (parts.flatMap Part.tokens) =
      (applyAll parts r).map fun r => atLine r.1 r.2 := by
  induction parts generalizing r with
  | nil => rfl
  | cons p parts ih =>
    rw [List.flatMap_cons, Reader.run_append, Part.run_tokens (h p List.mem_cons_self), applyAll_cons]
    cases p.apply r with
    | none => rfl
    | some r' => exact ih (fun q hq => h q (List.mem_cons_of_mem p hq)) r'

/-- A document has no byte order mark. -/
theorem withoutMark_written {parts : List Part} (h : ∀ p ∈ parts, IsBareKey p.name) :
    withoutMark (written parts) = written parts := by
  cases parts with
  | nil => rfl
  | cons p parts =>
    have hp := h p List.mem_cons_self
    cases p with
    | heading name => rfl
    | line key p =>
      obtain ⟨c, cs, rfl⟩ : ∃ c cs, key = c :: cs := List.exists_cons_of_ne_nil hp.ne_nil
      have hc : c.toNat ≠ 0xFEFF := by
        intro hmark
        have hbare := hp.isBare_eq c List.mem_cons_self
        rw [← Char.ofNat_toNat c, hmark] at hbare
        exact absurd hbare (by decide)
      exact if_neg hc

/-- **A document is read part by part.** -/
theorem document?_written {parts : List Part} (h : ∀ p ∈ parts, IsBareKey p.name) :
    document? (written parts) = (applyAll parts ([], [])).map Prod.fst := by
  have htokens : tokens? (written parts) = some (parts.flatMap Part.tokens) := by
    have hscan := scan_written h []
    rw [List.append_nil] at hscan
    have hrun := Lexer.run_append .ready (written parts) []
    rw [List.append_nil, hscan] at hrun
    rw [tokens?, withoutMark_written h, hrun]
    simp [scan, prefixed, Lexer.run, Lexer.finish]
  rw [document?, htokens, Option.bind_some]
  have hread := run_flatMap_tokens h ([], [])
  show (run (atLine [] []) _).bind finish = _
  rw [hread, Option.bind_map]
  cases applyAll parts ([], []) with
  | none => rfl
  | some r => rfl

/-! ### Tables -/

/-- The parts of a table with some lines. -/
def tableParts (t : List Char × List (List Char × Plain)) : List Part :=
  .heading t.1 :: t.2.map fun l => .line l.1 l.2

/-- The entries of lines. -/
def lineEntries (lines : List (List Char × Plain)) : Entries := lines.map fun l => (l.1, l.2.value)

open Entries

/-- The lines below a heading go to its table. -/
theorem applyAll_lines {name : List Char} {front : Entries} (hname : front.get? name = none)
    {lines : List (List Char × Plain)} (hkeys : (lines.map Prod.fst).Nodup) {inner : Entries}
    (hinner : ∀ l ∈ lines, inner.get? l.1 = none) :
    applyAll (lines.map fun l => .line l.1 l.2) (front ++ [(name, .table .header inner)], [name]) =
      some (front ++ [(name, .table .header (inner ++ lineEntries lines))], [name]) := by
  induction lines generalizing inner with
  | nil =>
    rw [lineEntries, List.map_nil, List.map_nil, List.append_nil]
    rfl
  | cons l lines ih =>
    obtain ⟨k, p⟩ := l
    have hk : inner.get? k = none := hinner (k, p) List.mem_cons_self
    have hassign : assign .header [k] p.value inner = some (inner ++ [(k, p.value)]) := by
      rw [← set_of_none hk]
      have hadd : assign .header [k] p.value inner = add? k p.value inner := rfl
      rw [hadd, add?, hk]
    have hwithin : within (assign .header [k] p.value) [name]
        (front ++ [(name, .table .header inner)]) =
          some (front ++ [(name, .table .header (inner ++ [(k, p.value)]))]) := by
      rw [within, get?_append_of_none hname]
      dsimp only
      rw [within, hassign, Option.map_some, set_append_of_none hname]
    rw [List.map_cons, List.nodup_cons] at hkeys
    have hrest : ∀ l ∈ lines, (inner ++ [(k, p.value)]).get? l.1 = none := by
      intro l hl
      have hne : l.1 ≠ k := by
        intro he
        exact hkeys.1 (List.mem_map.mpr ⟨l, hl, he⟩)
      have hold := hinner l (List.mem_cons_of_mem _ hl)
      rw [get?_eq_none_iff] at hold ⊢
      simp [hold, hne]
    rw [List.map_cons, applyAll_cons, Part.apply, hwithin, Option.map_some, Option.bind_some,
      ih hkeys.2 hrest, List.append_assoc]
    rfl

/-- The entries of tables. -/
def tableEntries (tables : List (List Char × List (List Char × Plain))) : Entries :=
  tables.map fun t => (t.1, .table .header (lineEntries t.2))

/-- **The tables of a document**, if no name and no key is written twice. -/
theorem applyAll_tables {tables : List (List Char × List (List Char × Plain))}
    (hnames : (tables.map Prod.fst).Nodup) (hkeys : ∀ t ∈ tables, (t.2.map Prod.fst).Nodup)
    {front : Entries} (hfront : ∀ t ∈ tables, front.get? t.1 = none) (table : KeyPath) :
    (applyAll (tables.flatMap tableParts) (front, table)).map Prod.fst =
      some (front ++ tableEntries tables) := by
  induction tables generalizing front table with
  | nil =>
    rw [tableEntries, List.map_nil, List.append_nil]
    rfl
  | cons t tables ih =>
    obtain ⟨name, lines⟩ := t
    have hname : front.get? name = none := hfront (name, lines) List.mem_cons_self
    have hopen : openTable name .header front = some (front ++ [(name, .table .header [])]) := by
      rw [openTable, hname, ← set_of_none hname]
    have hempty : ∀ l ∈ lines, Entries.get? l.1 [] = none := fun l _ => rfl
    have hlines := applyAll_lines hname (hkeys (name, lines) List.mem_cons_self) hempty
    rw [List.map_cons, List.nodup_cons] at hnames
    have hrest : ∀ t ∈ tables,
        Entries.get? t.1 (front ++ [(name, .table .header (lineEntries lines))]) = none := by
      intro t ht
      have hne : t.1 ≠ name := by
        intro he
        exact hnames.1 (List.mem_map.mpr ⟨t, ht, he⟩)
      have hold := hfront t (List.mem_cons_of_mem _ ht)
      rw [get?_eq_none_iff] at hold ⊢
      simp [hold, hne]
    rw [List.flatMap_cons, tableParts, List.cons_append, applyAll_cons, Part.apply, hopen,
      Option.map_some, Option.bind_some, applyAll_append, hlines, List.nil_append, Option.bind_some,
      ih hnames.2 (fun t ht => hkeys t (List.mem_cons_of_mem _ ht)) hrest, List.append_assoc]
    rfl

end Toml
end LintGate
