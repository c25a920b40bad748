import LintGate.Proofs.Json.Reader

/-!
# A written value is read again

A reader that is due a value and meets a written one hands it on complete, whatever is
already open and whatever follows.  So nothing is lost in a document: it stands for the value
it was written from and for no other.

The one part of a value that does not show its own end is a number.  Hence the condition that
what follows does not start with a digit; a document meets it, since a comma or a line feed
stands behind every number.

## Main definitions

* `Json.EndsNumber` — texts that do not go on with a number.
* `Json.Spells` — texts that a reader takes for a value.

## Main results

* `Reader.run_escape` — a character is read from its escape.
* `Json.spells_pretty` — a reader takes the lines of a value for that value.
* `Json.ofText?_pretty`, `Json.ofText?_document` — the value that is written is the one read.
* `Json.document_injective` — documents of different values differ.
-/

namespace LintGate
namespace Json

/-- Texts that do not start with a digit. -/
def EndsNumber (rest : List Char) : Prop := ∀ c ∈ rest.head?, Text.digit? 10 c = none

theorem endsNumber_cons {c : Char} {rest : List Char} :
    EndsNumber (c :: rest) ↔ Text.digit? 10 c = none := by
  simp [EndsNumber]

/-- What is due where a value may start. -/
inductive Due.AtValue : Due → Prop
  | value : AtValue .value
  | item : AtValue .item

/-- A text is taken for a value wherever one may start. -/
def Spells (cs : List Char) (v : Json) : Prop :=
  ∀ (fs : List Frame) {d : Due} {rest : List Char}, d.AtValue → EndsNumber rest →
    Reader.run ⟨fs, d⟩ (cs ++ rest) = (Reader.complete v fs).run rest

namespace Reader

/-! ### Single characters -/

variable {fs : List Frame} {r r' : Reader} {c : Char} {cs rest : List Char}

theorem run_of_step (h : r.step c = some r') : r.run (c :: cs) = r'.run cs := by
  rw [run, h, Option.bind_some]

theorem step_atValue {d : Due} (hd : d.AtValue) (hspace : isSpace c = false) (hclose : c ≠ ']') :
    Reader.step ⟨fs, d⟩ c = startValue fs c := by
  cases hd with
  | value => simp [step, stepBetween, hspace]
  | item => simp [step, stepBetween, hspace, hclose]

/-- A text is taken for a value if its first character starts the value and the others
complete it. -/
theorem spells_cons {v : Json} (hspace : isSpace c = false) (hclose : c ≠ ']')
    (h : ∀ fs, ∃ r, startValue fs c = some r ∧
      ∀ rest, EndsNumber rest → r.run (cs ++ rest) = (complete v fs).run rest) :
    Spells (c :: cs) v := by
  intro fs d rest hd hrest
  obtain ⟨r, hstart, hrun⟩ := h fs
  have hstep : Reader.step ⟨fs, d⟩ c = some r := (step_atValue hd hspace hclose).trans hstart
  exact (run_of_step hstep).trans (hrun rest hrest)

/-! ### Blanks -/

/-- A reader that passes over blanks. -/
def Idle (r : Reader) : Prop := ∀ c, isSpace c = true → r.step c = some r

theorem idle_of_between (h : ∀ c, r.step c = r.stepBetween c) : r.Idle := by
  intro c hc
  rw [h, stepBetween, if_pos hc]

theorem Idle.run_cons (h : r.Idle) (hc : isSpace c = true) : r.run (c :: cs) = r.run cs :=
  run_of_step (h c hc)

theorem Idle.run_replicate (h : r.Idle) (n : Nat) :
    r.run (List.replicate n ' ' ++ rest) = r.run rest := by
  induction n with
  | zero => rfl
  | succ n ih =>
    rw [List.replicate_succ, List.cons_append, h.run_cons rfl]
    exact ih

theorem Idle.run_newline (h : r.Idle) (level : Nat) :
    r.run (newline level ++ rest) = r.run rest := by
  rw [newline, List.cons_append, h.run_cons rfl]
  exact h.run_replicate (2 * level)

/-! ### Quoted texts -/

/-- A character is read from its escape. -/
theorem run_escape (isKey : Bool) (read : List Char) (c : Char) :
    Reader.run ⟨fs, .text isKey read .plain⟩ (escape c ++ rest) =
      Reader.run ⟨fs, .text isKey (c :: read) .plain⟩ rest := by
  -- a control character is told by its number
  have hself : Char.ofNat c.toNat = c := Char.ofNat_toNat c
  unfold escape
  split
  · next h => subst h; rfl
  split
  · next h => subst h; rfl
  split
  · next h => rw [← hself, h]; rfl
  split
  · next h => rw [← hself, h]; rfl
  split
  · next h => subst h; rfl
  split
  · next h => subst h; rfl
  split
  · next h => subst h; rfl
  split
  · next hlow =>
    have hhigh : Text.digit? 16 (Text.hexDigit (c.toNat / 16)) = some (c.toNat / 16) :=
      Text.digit?_hexDigit (by omega)
    have hunit : Text.digit? 16 (Text.hexDigit (c.toNat % 16)) = some (c.toNat % 16) :=
      Text.digit?_hexDigit (Nat.mod_lt _ (by decide))
    have hcode : charOf? (c.toNat / 16 * 16 + c.toNat % 16) = some c := by
      rw [Nat.div_add_mod', charOf?, if_pos (Or.inl (by omega)), hself]
    have hzero : Text.digit? 16 '0' = some 0 := by decide
    simp [run, step, stepText, hzero, hhigh, hunit, hcode]
  · next hquote hslash _ _ _ _ _ hhigh =>
    have hstep : Reader.step ⟨fs, .text isKey read .plain⟩ c =
        some ⟨fs, .text isKey (c :: read) .plain⟩ := by
      simp [step, stepText, hquote, hslash, hhigh]
    exact run_of_step hstep

theorem run_escaped (isKey : Bool) (read : List Char) :
    ∀ cs : List Char, Reader.run ⟨fs, .text isKey read .plain⟩ (cs.flatMap escape ++ '"' :: rest) =
      (endText isKey (String.ofList (read.reverse ++ cs)) fs).bind fun r => r.run rest
  | [] => by
    rw [List.append_nil]
    rfl
  | c :: cs => by
    rw [List.flatMap_cons, List.append_assoc, run_escape, run_escaped isKey (c :: read) cs,
      List.reverse_cons, List.append_assoc, List.singleton_append]

/-- A quoted text is handed on, as a key or as a value. -/
theorem run_quoted (isKey : Bool) (s : String) :
    Reader.run ⟨fs, .text isKey [] .plain⟩ (s.toList.flatMap escape ++ '"' :: rest) =
      (endText isKey s fs).bind fun r => r.run rest := by
  rw [run_escaped, List.reverse_nil, List.nil_append, String.ofList_toList]

theorem endText_value (s : String) : endText false s fs = some (complete (.text s) fs) := by
  cases fs with
  | nil => rfl
  | cons f fs => cases f <;> rfl

theorem spells_quote (s : String) : Spells (quote s.toList) (.text s) := by
  refine spells_cons (by decide) (by decide) fun fs => ⟨_, rfl, fun rest _ => ?_⟩
  rw [List.append_assoc, List.singleton_append, run_quoted, endText_value, Option.bind_some]

/-! ### Numbers -/

theorem digit?_digitChar {n : Nat} (h : n < 10) : Text.digit? 10 n.digitChar = some n := by
  revert n
  decide

theorem startValue_digitChar {n : Nat} (h : n < 10) :
    startValue fs n.digitChar = some ⟨fs, .number n⟩ := by
  have hdigit := digit?_digitChar h
  have hother : ∀ n < 10, n.digitChar ∉ ['"', '[', '\x7b', 't', 'f', 'n'] := by decide
  have hne := hother n h
  simp only [List.mem_cons, List.not_mem_nil, or_false, not_or] at hne
  simp [startValue, hne, hdigit]

/-- The digits of a number are read as its value so far. -/
theorem run_toDigits {d : Due} (hd : d.AtValue) (n : Nat) :
    Reader.run ⟨fs, d⟩ (Nat.toDigits 10 n ++ rest) = Reader.run ⟨fs, .number n⟩ rest := by
  induction n using Nat.strongRecOn generalizing rest with
  | ind n ih =>
    rcases Nat.lt_or_ge n 10 with hlt | hge
    · have hplain : ∀ n < 10, isSpace n.digitChar = false ∧ n.digitChar ≠ ']' := by decide
      obtain ⟨hspace, hclose⟩ := hplain n hlt
      have hstep : Reader.step ⟨fs, d⟩ n.digitChar = some ⟨fs, .number n⟩ :=
        (step_atValue hd hspace hclose).trans (startValue_digitChar hlt)
      rw [Nat.toDigits_of_lt_base hlt]
      exact run_of_step hstep
    · have hdigit := digit?_digitChar (Nat.mod_lt n (by decide : 0 < 10))
      have hfront : n / 10 ≠ 0 := by omega
      have hstep : Reader.step ⟨fs, .number (n / 10)⟩ (n % 10).digitChar =
          some ⟨fs, .number n⟩ := by
        simp [step, hdigit, hfront, Nat.div_add_mod']
      rw [Nat.toDigits_of_base_le (by decide) hge, List.append_assoc, List.singleton_append,
        ih (n / 10) (by omega)]
      exact run_of_step hstep

/-- A number is complete where no digit follows. -/
theorem run_number (n : Nat) (hrest : EndsNumber rest) :
    Reader.run ⟨fs, .number n⟩ rest = (complete (.number n) fs).run rest := by
  cases rest with
  | nil =>
    cases fs with
    | nil => rfl
    | cons f fs => cases f <;> rfl
  | cons c cs =>
    have hdigit : Text.digit? 10 c = none := endsNumber_cons.mp hrest
    have hnumber : Reader.step ⟨fs, .number n⟩ c = (complete (.number n) fs).stepBetween c := by
      simp [step, hdigit]
    have hcomplete : (complete (.number n) fs).step c = (complete (.number n) fs).stepBetween c := by
      cases fs with
      | nil => rfl
      | cons f fs => cases f <;> rfl
    rw [run, run, hnumber, hcomplete]

theorem spells_number (n : Nat) : Spells (toString n).toList (.number n) := by
  intro fs d rest hd hrest
  have hdigits : (toString n).toList = Nat.toDigits 10 n := by
    rw [Nat.toString_eq_ofList_toDigits, String.toList_ofList]
  rw [hdigits, run_toDigits hd, run_number n hrest]

/-! ### Words -/

theorem run_word (word : List Char) {v : Json} (hword : word ≠ []) :
    Reader.run ⟨fs, .word word v⟩ (word ++ rest) = (complete v fs).run rest := by
  induction word with
  | nil => exact absurd rfl hword
  | cons c word ih =>
    cases word with
    | nil =>
      have hstep : Reader.step ⟨fs, .word [c] v⟩ c = some (complete v fs) := by simp [step]
      exact run_of_step hstep
    | cons d word =>
      have hstep : Reader.step ⟨fs, .word (c :: d :: word) v⟩ c =
          some ⟨fs, .word (d :: word) v⟩ := by simp [step]
      exact (run_of_step hstep).trans (ih (List.cons_ne_nil d word))

theorem spells_null : Spells "null".toList .null :=
  spells_cons (by decide) (by decide) fun _ =>
    ⟨_, rfl, fun _ _ => run_word "ull".toList (by decide)⟩

theorem spells_bool (b : Bool) : Spells (if b then "true" else "false").toList (.bool b) := by
  cases b with
  | true =>
    exact spells_cons (by decide) (by decide) fun _ =>
      ⟨_, rfl, fun _ _ => run_word "rue".toList (by decide)⟩
  | false =>
    exact spells_cons (by decide) (by decide) fun _ =>
      ⟨_, rfl, fun _ _ => run_word "alse".toList (by decide)⟩

/-! ### Keys -/

theorem run_key {fields : List (String × Json)} {key : String} {d : Due}
    (hd : Reader.step ⟨.object fields key :: fs, d⟩ '"' =
      some ⟨.object fields key :: fs, .text true [] .plain⟩) (k : String) :
    Reader.run ⟨.object fields key :: fs, d⟩ (quote k.toList ++ ':' :: ' ' :: rest) =
      Reader.run ⟨.object fields k :: fs, .value⟩ rest := by
  rw [quote, List.cons_append, run_of_step hd, List.append_assoc, List.singleton_append,
    run_quoted]
  rfl

end Reader

/-! ### Values -/

open Reader

theorem endsNumber_prettyItems (level : Nat) (vs : List Json) {rest : List Char}
    (h : EndsNumber rest) : EndsNumber (prettyItems level vs ++ rest) := by
  cases vs with
  | nil => simpa [prettyItems] using h
  | cons v vs =>
    rw [prettyItems]
    exact endsNumber_cons.mpr (by decide)

theorem endsNumber_prettyFields (level : Nat) (fields : List (String × Json)) {rest : List Char}
    (h : EndsNumber rest) : EndsNumber (prettyFields level fields ++ rest) := by
  cases fields with
  | nil => simpa [prettyFields] using h
  | cons f fields =>
    rw [prettyFields]
    exact endsNumber_cons.mpr (by decide)

theorem endsNumber_newline (level : Nat) (rest : List Char) :
    EndsNumber (newline level ++ rest) := endsNumber_cons.mpr (by decide)

-- The three statements follow the three functions that write a value.
mutual

/-- A reader takes the lines of a value for that value. -/
theorem spells_pretty (level : Nat) : ∀ v : Json, Spells (pretty level v) v
  | .null => by
    rw [pretty]
    exact spells_null
  | .bool b => by
    rw [pretty]
    exact spells_bool b
  | .number n => by
    rw [pretty]
    exact spells_number n
  | .text s => by
    rw [pretty]
    exact spells_quote s
  | .array [] => by
    rw [pretty]
    exact spells_cons (by decide) (by decide) fun _ => ⟨_, rfl, fun _ _ => rfl⟩
  | .array (v :: vs) => by
    rw [pretty]
    refine spells_cons (by decide) (by decide) fun fs => ⟨_, rfl, fun rest _ => ?_⟩
    have hend : EndsNumber (newline level ++ ']' :: rest) := endsNumber_newline level _
    have hitems := endsNumber_prettyItems (level + 1) vs hend
    have hopen : Idle ⟨.array [] :: fs, .item⟩ := idle_of_between fun _ => rfl
    have hfull : Idle ⟨.array (vs.reverse ++ [v]) :: fs, .separator⟩ :=
      idle_of_between fun _ => rfl
    have hclose : Reader.step ⟨.array (vs.reverse ++ [v]) :: fs, .separator⟩ ']' =
        some (complete (.array (v :: vs)) fs) := by
      simp [step, stepBetween, isSpace, separate, closeArray]
    simp only [List.append_assoc, List.singleton_append]
    rw [hopen.run_newline, spells_pretty (level + 1) v _ .item hitems, complete,
      run_prettyItems (level + 1) vs fs [v] hend, hfull.run_newline]
    exact run_of_step hclose
  | .object [] => by
    rw [pretty]
    exact spells_cons (by decide) (by decide) fun _ => ⟨_, rfl, fun _ _ => rfl⟩
  | .object ((k, v) :: more) => by
    rw [pretty]
    refine spells_cons (by decide) (by decide) fun fs => ⟨_, rfl, fun rest _ => ?_⟩
    have hend : EndsNumber (newline level ++ '\x7d' :: rest) := endsNumber_newline level _
    have hmore := endsNumber_prettyFields (level + 1) more hend
    have hopen : Idle ⟨.object [] "" :: fs, .field⟩ := idle_of_between fun _ => rfl
    obtain ⟨key, hrun⟩ := run_prettyFields (level + 1) more fs [(k, v)] k hend
    have hfull : Idle ⟨.object (more.reverse ++ [(k, v)]) key :: fs, .separator⟩ :=
      idle_of_between fun _ => rfl
    have hclose : Reader.step ⟨.object (more.reverse ++ [(k, v)]) key :: fs, .separator⟩ '\x7d' =
        some (complete (.object ((k, v) :: more)) fs) := by
      simp [step, stepBetween, isSpace, separate, closeObject]
    simp only [List.append_assoc, List.cons_append, List.nil_append]
    rw [hopen.run_newline, run_key rfl k, spells_pretty (level + 1) v _ .value hmore, complete,
      hrun, hfull.run_newline]
    exact run_of_step hclose

/-- The further items of an array are read behind the ones before. -/
theorem run_prettyItems (level : Nat) : ∀ (vs : List Json) (fs : List Frame) (items : List Json)
    {rest : List Char}, EndsNumber rest →
      Reader.run ⟨.array items :: fs, .separator⟩ (prettyItems level vs ++ rest) =
        Reader.run ⟨.array (vs.reverse ++ items) :: fs, .separator⟩ rest
  | [], fs, items, rest, _ => by
    rw [prettyItems]
    rfl
  | v :: vs, fs, items, rest, hrest => by
    have hitems := endsNumber_prettyItems level vs hrest
    have hcomma : Reader.step ⟨.array items :: fs, .separator⟩ ',' =
        some ⟨.array items :: fs, .value⟩ := rfl
    have hnext : Idle ⟨.array items :: fs, .value⟩ := idle_of_between fun _ => rfl
    rw [prettyItems, List.cons_append, run_of_step hcomma, List.append_assoc, List.append_assoc,
      hnext.run_newline, spells_pretty level v _ .value hitems, complete,
      run_prettyItems level vs fs (v :: items) hrest, List.reverse_cons, List.append_assoc,
      List.singleton_append]

/-- The further fields of an object are read behind the ones before. -/
theorem run_prettyFields (level : Nat) : ∀ (more : List (String × Json)) (fs : List Frame)
    (fields : List (String × Json)) (key : String) {rest : List Char}, EndsNumber rest →
      ∃ key', Reader.run ⟨.object fields key :: fs, .separator⟩ (prettyFields level more ++ rest) =
        Reader.run ⟨.object (more.reverse ++ fields) key' :: fs, .separator⟩ rest
  | [], fs, fields, key, rest, _ => by
    rw [prettyFields]
    exact ⟨key, rfl⟩
  | (k, v) :: more, fs, fields, key, rest, hrest => by
    have hmore := endsNumber_prettyFields level more hrest
    have hcomma : Reader.step ⟨.object fields key :: fs, .separator⟩ ',' =
        some ⟨.object fields key :: fs, .key⟩ := rfl
    have hnext : Idle ⟨.object fields key :: fs, .key⟩ := idle_of_between fun _ => rfl
    obtain ⟨key', hrun⟩ := run_prettyFields level more fs ((k, v) :: fields) k hrest
    refine ⟨key', ?_⟩
    rw [prettyFields, List.cons_append, run_of_step hcomma]
    simp only [List.append_assoc, List.cons_append]
    rw [hnext.run_newline, run_key rfl k, spells_pretty level v _ .value hmore, complete, hrun,
      List.reverse_cons, List.append_assoc, List.singleton_append]

end

/-! ### Documents -/

/-- The lines of a value stand for that value. -/
theorem ofText?_pretty (level : Nat) (v : Json) : ofText? (pretty level v) = some v := by
  have hend : EndsNumber [] := by simp [EndsNumber]
  have hrun := spells_pretty level v [] .value hend
  rw [List.append_nil] at hrun
  exact hrun

/-- A document stands for the value it was written from. -/
theorem ofText?_document (v : Json) : ofText? v.document.toList = some v := by
  have hend : EndsNumber ['\n'] := endsNumber_cons.mpr (by decide)
  rw [document, String.toList_ofList]
  exact spells_pretty 0 v [] .value hend

/-- Documents of different values differ. -/
theorem document_injective {v w : Json} (h : v.document = w.document) : v = w := by
  have hread : some v = some w := by rw [← ofText?_document v, h, ofText?_document w]
  exact Option.some.inj hread

end Json
end LintGate
