import LintGate.Proofs.Config.Fields
import LintGate.Proofs.Config.Reading
import LintGate.Proofs.Toml.Additions
import LintGate.Verify

/-!
# Configuration files that were written

Some fields of a configuration are written, each below the heading of its table.  Reading the
file gives them back, and the other fields have their defaults.  Keys and tables with other names
may be added to it.

## Main definitions

* `Config.document` — the document of some fields.

## Main results

* `Config.ofText_of_extends` — what is read from a document with more in it.
* `readConfig_document` — a file is read back.
-/

namespace LintGate

open Toml

namespace Config

/-! ### Writing -/

section

variable (K : Finset Field) (c : Config)

/-- The lines of a table. -/
def lines (g : Group) : List (List Char × Plain) :=
  (g.fields.filter (· ∈ K)).map fun f => (f.key.toList, f.value c)

/-- The tables that have a field. -/
def tables : List (List Char × List (List Char × Plain)) :=
  (Group.all.filter fun g => g.fields.any (· ∈ K)).map fun g => (g.name.toList, lines K c g)

/-- The headings and assignments of some fields. -/
def parts : List Toml.Part := (tables K c).flatMap tableParts

/-- The document that writes some fields. -/
def document : String := String.ofList (written (parts K c))

end

variable {K : Finset Field} {c : Config} {es : Entries}

theorem isBareKey_of_mem_parts {p : Toml.Part} (h : p ∈ parts K c) : IsBareKey p.name := by
  obtain ⟨t, ht, hp⟩ := List.mem_flatMap.mp h
  obtain ⟨g, -, rfl⟩ := List.mem_map.mp ht
  rcases List.mem_cons.mp hp with rfl | hp
  · exact isBareKey_name g
  · obtain ⟨l, hl, rfl⟩ := List.mem_map.mp hp
    obtain ⟨f, -, rfl⟩ := List.mem_map.mp hl
    exact isBareKey_key f

/-! ### Entries -/

theorem isStorable_value (f : Field) : (f.value c).value.isStorable = true := by
  have htext : ∀ cs, (Plain.text cs).value.isStorable = true := fun cs => by
    rw [Plain.value, Value.isStorable]
  have htexts : ∀ ss, (textList ss).value.isStorable = true := by
    intro ss
    rw [textList, Plain.value, Value.isStorable]
    refine Value.itemsStorable_iff.mpr fun v hv => ?_
    obtain ⟨i, hi, rfl⟩ := List.mem_map.mp hv
    obtain ⟨s, -, rfl⟩ := List.mem_map.mp hi
    rw [Item.value, Value.isStorable]
  have hcodes : ∀ rs, (codeList rs).value.isStorable = true := by
    intro rs
    rw [codeList, Plain.value, Value.isStorable]
    refine Value.itemsStorable_iff.mpr fun v hv => ?_
    obtain ⟨i, hi, rfl⟩ := List.mem_map.mp hv
    obtain ⟨r, -, rfl⟩ := List.mem_map.mp hi
    have hr : r.toNat < 2 ^ 32 := r.toNat_lt_size
    rw [Item.value, Value.isStorable, Scalar.isStorable, decide_eq_true_eq]
    have hbound : r.toNat < Nat.pow 2 128 := Nat.lt_trans hr (by decide)
    exact ⟨by omega, Int.ofNat_lt.mpr hbound⟩
  cases f with
  | name | version | image | releaseUrl | allowList | runtime => exact htext _
  | extensions | excluded | included => exact htexts _
  | disabledRules => exact hcodes _

/-- The document's entries are those of the fields that are written. -/
theorem hasOnly_tableEntries (K : Finset Field) (c : Config) :
    HasOnly K (tableEntries (tables K c)) := by
  have hmem : ∀ e ∈ tableEntries (tables K c), ∃ g : Group,
      e = (g.name.toList, .table .header (lineEntries (lines K c g))) := by
    intro e he
    obtain ⟨t, ht, rfl⟩ := List.mem_map.mp he
    obtain ⟨g, -, rfl⟩ := List.mem_map.mp ht
    exact ⟨g, rfl⟩
  have hline : ∀ g, ∀ e ∈ lineEntries (lines K c g), ∃ f ∈ K,
      e = (f.key.toList, (f.value c).value) := by
    intro g e he
    obtain ⟨l, hl, rfl⟩ := List.mem_map.mp he
    obtain ⟨f, hf, rfl⟩ := List.mem_map.mp hl
    exact ⟨f, of_decide_eq_true (List.mem_filter.mp hf).2, rfl⟩
  refine ⟨Value.entriesStorable_iff.mpr fun e he => ?_, fun g v hv => ?_, fun f hf => ?_⟩
  · obtain ⟨g, rfl⟩ := hmem e he
    rw [Value.isStorable]
    refine Value.entriesStorable_iff.mpr fun e he => ?_
    obtain ⟨f, -, rfl⟩ := hline g e he
    exact isStorable_value f
  · obtain ⟨g', heq⟩ := hmem _ (Entries.mem_of_get? hv)
    exact ⟨_, _, (Prod.mk.inj heq).2⟩
  · cases hbelow : Entries.below? f.key.toList [f.group.name.toList] (tableEntries (tables K c)) with
    | none => rfl
    | some v =>
      rw [Entries.below?] at hbelow
      split at hbelow
      · next form inner hget =>
        obtain ⟨g, heq⟩ := hmem _ (Entries.mem_of_get? hget)
        cases (Prod.mk.inj heq).2
        obtain ⟨f', hf', heq⟩ := hline g _ (Entries.mem_of_get? hbelow)
        obtain rfl : f = f' := Field.key_injective (congrArg Prod.fst heq)
        exact absurd hf' hf
      · cases hbelow

/-- The document of some fields is valid, and this is what it spells. -/
theorem document?_document (K : Finset Field) (c : Config) :
    document? (c.document K).toList = some (tableEntries (tables K c)) := by
  have hnames : ((tables K c).map Prod.fst).Nodup := by
    rw [tables, List.map_map]
    exact List.Nodup.map Group.name_injective (List.Nodup.filter _ (by decide))
  have hkeys : ∀ t ∈ tables K c, (t.2.map Prod.fst).Nodup := by
    intro t ht
    obtain ⟨g, -, rfl⟩ := List.mem_map.mp ht
    rw [lines, List.map_map]
    refine List.Nodup.map Field.key_injective (List.Nodup.filter _ ?_)
    cases g <;> decide
  have hfront : ∀ t ∈ tables K c, Entries.get? t.1 [] = none := fun t _ => rfl
  have htables := applyAll_tables hnames hkeys hfront []
  rw [document, String.toList_ofList, document?_written fun p => isBareKey_of_mem_parts, parts,
    htables, List.nil_append]

/-- **A document with more in it** than the lines of some fields gives the same configuration,
unless it sets another field. -/
theorem ofText_of_extends {text : String} (hext : Extends (c.parts K) (withoutMark text.toList))
    (hes : document? text.toList = some es) (h : HasOnly K es) :
    ofText text = .ok (c.keeping K) := by
  have hset : ∀ f ∈ K, es.below? f.key.toList [f.group.name.toList] = some (f.value c).value := by
    intro f hf
    have hread := hes
    rw [document?_eq_readOn] at hread
    have ht : (f.group.name.toList, lines K c f.group) ∈ tables K c := by
      refine List.mem_map.mpr ⟨f.group, List.mem_filter.mpr ⟨f.group.mem_all, ?_⟩, rfl⟩
      exact List.any_eq_true.mpr ⟨f, f.mem_fields, decide_eq_true hf⟩
    have hl : (f.key.toList, f.value c) ∈ lines K c f.group :=
      List.mem_map.mpr ⟨f, List.mem_filter.mpr ⟨f.mem_fields, decide_eq_true hf⟩, rfl⟩
    exact hext.below?_eq (fun p => isBareKey_of_mem_parts) (isOpen_none _) hread _
      (mem_assignments ht hl none)
  rw [ofText, hes]
  dsimp only
  rw [ofEntries?_eq h hset]

end Config

/-! ### Files -/

open Config

variable {σ : Type} {answer : (r : Request) → σ → r.Answer × σ} {s s' : σ}

/-- What is read from a file is what its text spells. -/
theorem run_readConfig_ok {path text : String} {c : Config}
    (hfile : answer (.readFile path) s = (.ok (Text.encode text.toList), s'))
    (htext : Config.ofText text = .ok c) :
    (readConfig path).run.run answer s = (.ok c, s') := by
  have hspelled : ReadAs path (.ok (Text.encode text.toList)) (.ok c) :=
    .spelled (Text.decode?_encode _) (by rwa [String.ofList_toList])
  obtain ⟨x, hrun, hx⟩ := run_readConfig answer path s
  rw [hfile] at hrun hx
  rw [hrun, hx.unique hspelled]

/-- **A configuration file is read back.**  From the document of some fields of a configuration,
a configuration is read with their values and with the defaults of the other fields.  Lines may be
added to the document: it is read the same as long as it is valid and sets no other field. -/
theorem readConfig_document (K : Finset Config.Field) (c : Config) {path text : String}
    (hfile : answer (.readFile path) s = (.ok (Text.encode text.toList), s')) :
    (text = c.document K → (readConfig path).run.run answer s = (.ok (c.keeping K), s')) ∧
      (∀ es, Extends (c.parts K) (withoutMark text.toList) → document? text.toList = some es →
        HasOnly K es → (readConfig path).run.run answer s = (.ok (c.keeping K), s')) ∧
      ∀ f : Config.Field, f.value (c.keeping K) = f.value (if f ∈ K then c else {}) := by
  have hext : ∀ es, Extends (c.parts K) (withoutMark text.toList) → document? text.toList = some es →
      HasOnly K es → (readConfig path).run.run answer s = (.ok (c.keeping K), s') :=
    fun es hext hes h => run_readConfig_ok hfile (ofText_of_extends hext hes h)
  refine ⟨?_, hext, value_keeping K c⟩
  rintro rfl
  refine hext _ ?_ (document?_document K c) (hasOnly_tableEntries K c)
  rw [document, String.toList_ofList, withoutMark_written fun p => isBareKey_of_mem_parts]
  exact extends_written _

/-- A machine whose files all hold one text, and which does nothing else. -/
def holding (text : String) : (r : Request) → Unit → r.Answer × Unit
  | .readFile _, _ => (.ok (Text.encode text.toList), ())
  | .run _, _ | .canonical _, _ | .makeDirs _, _ | .tempFile .., _ | .tempDir .., _
  | .writeFile .., _ | .removeFile _, _ | .removeTree _, _ | .rename .., _ => (.error .denied, ())
  | .fetch url, _ => (.error (.unreachable url), ())
  | .isThere _, _ | .isFile _, _ => (true, ())
  | .survey _, _ => (none, ())
  | .print .., _ => (.ok (), ())
  | .tell _, _ => ((), ())
  | .token, _ => ("1", ())
  | .registry op, _ => ((({} : Registry).apply op).1, ())

/-- A configuration with two fields that have not their defaults. -/
def pinned : Config := { tool := { version := "0.9.0" }, discovery := { allowList := "ci" } }

/-- A file that sets these fields, with keys and tables that are none of a configuration. -/
def annotated : String :=
  "title = 1\n[tool]\nlevel = 2\nversion = \"0.9.0\"\n[more]\n" ++
    "[discovery]\nallow_list = \"ci\"\n[tool.more]\nname = \"x\""

theorem readConfig_document_annotated :
    holding annotated (.readFile "f") () = (.ok (Text.encode annotated.toList), ()) ∧
    Extends (pinned.parts {.version, .allowList}) (withoutMark annotated.toList) ∧
    (∃ es, document? annotated.toList = some es ∧ HasOnly {.version, .allowList} es) ∧
    (readConfig "f").run.run (holding annotated) () = (.ok pinned, ()) := by
  have hfile : holding annotated (.readFile "f") () =
      (.ok (Text.encode annotated.toList), ()) := rfl
  have htitle : IsKeyLines "title = 1\n".toList :=
    ⟨[.atom "title".toList, .blank [' '], .equals, .blank [' '], .atom ['1'], .newline],
      [], [("title".toList, .scalar (.integer 1))], by decide, rfl⟩
  have hlevel : IsKeyLines "level = 2\n".toList :=
    ⟨[.atom "level".toList, .blank [' '], .equals, .blank [' '], .atom ['2'], .newline],
      [], [("level".toList, .scalar (.integer 2))], by decide, rfl⟩
  have hmore : IsLines "[more]\n".toList :=
    ⟨[.openBracket, .atom "more".toList, .closeBracket, .newline], ([], []),
      ([("more".toList, .table .header [])], ["more".toList]), by decide, rfl⟩
  have hparts : pinned.parts {.version, .allowList} =
      [.heading "tool".toList, .line "version".toList (.text "0.9.0".toList),
        .heading "discovery".toList, .line "allow_list".toList (.text "ci".toList)] := rfl
  have htext : withoutMark annotated.toList = "title = 1\n".toList ++
      (Toml.Part.written (.heading "tool".toList) ++ ("level = 2\n".toList ++
        (Toml.Part.written (.line "version".toList (.text "0.9.0".toList)) ++ ("[more]\n".toList ++
          (Toml.Part.written (.heading "discovery".toList) ++
            (Toml.Part.written (.line "allow_list".toList (.text "ci".toList)) ++
              "[tool.more]\nname = \"x\"".toList)))))) := by decide
  have hext : Extends (pinned.parts {.version, .allowList}) (withoutMark annotated.toList) := by
    rw [hparts, htext]
    exact .keys htitle (.part (.keys hlevel (.part (.tables hmore (.part (.part (.rest _)))))))
  have hvalid : ∃ es, document? annotated.toList = some es ∧ HasOnly {.version, .allowList} es := by
    refine ⟨[("title".toList, .scalar (.integer 1)),
      ("tool".toList, .table .header
        [("level".toList, .scalar (.integer 2)), ("version".toList, .text "0.9.0".toList),
          ("more".toList, .table .header [("name".toList, .text "x".toList)])]),
      ("more".toList, .table .header []),
      ("discovery".toList, .table .header [("allow_list".toList, .text "ci".toList)])],
      rfl, rfl, ?_, ?_⟩
    · intro g v hv
      cases g with
      | tool | discovery => exact ⟨_, _, (Option.some.inj hv).symm⟩
      | sandbox => cases hv
    · intro f hf
      cases f with
      | version | allowList => exact absurd (by decide) hf
      | _ => rfl
  obtain ⟨es, hes, honly⟩ := hvalid
  have hkeeping : pinned.keeping {.version, .allowList} = pinned := rfl
  have hread := (readConfig_document {.version, .allowList} pinned hfile).2.1 es hext hes honly
  rw [hkeeping] at hread
  exact ⟨hfile, hext, ⟨es, hes, honly⟩, hread⟩

end LintGate
