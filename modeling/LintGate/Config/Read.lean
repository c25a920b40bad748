import LintGate.Config
import LintGate.Toml.Document

/-!
# Reading a configuration

A configuration is a TOML document with the tables `tool`, `discovery` and `sandbox`.
What it leaves out has its default, and unknown keys are passed over.  A table may be
written as an array too, whose items are its settings in their order; a date in its
place holds no setting.

## Main definitions

* `Settings.ofValue?` — the settings that stand in a table's place.
* `Config.ofEntries?` — the configuration of a document's entries.
* `Config.ofText` — the configuration that a text spells.
-/

namespace LintGate

open Toml

/-! ### Values that are passed over -/

/-- Whether a decimal number is smaller than every double that counts as infinite: the
bound lies half a unit above the largest double. -/
def Toml.Scalar.isFinite (mantissa exponent : Int) : Bool :=
  -- The number of digits decides all but the numbers near the bound.
  let m := mantissa.natAbs
  let bound := Nat.pow 2 1024 - Nat.pow 2 970
  let digits : Int := (Nat.toDigits 10 m).length
  if m = 0 ∨ digits + exponent ≤ 308 then true
  else if 309 < digits + exponent then false
  else if 0 ≤ exponent then decide (m * Nat.pow 10 exponent.toNat < bound)
  else decide (m < bound * Nat.pow 10 (-exponent).toNat)

/-- Whether a number can be stored at all: an integer in 128 bits, a decimal in a
double. -/
def Toml.Scalar.isStorable : Scalar → Bool
  | .integer n => decide (-(Nat.pow 2 127 : Nat) ≤ n ∧ n < (Nat.pow 2 128 : Nat))
  | .decimal m e => isFinite m e
  | .misspelt => false
  | _ => true

mutual

/-- Whether every number in a value can be stored. -/
def Toml.Value.isStorable : Value → Bool
  | .text _ => true
  | .scalar s => s.isStorable
  | .array items => itemsStorable items
  | .table _ es => entriesStorable es
  | .elements ts => tablesStorable ts

/-- The same for the items of an array. -/
def Toml.Value.itemsStorable : List Value → Bool
  | [] => true
  | v :: vs => v.isStorable && itemsStorable vs

/-- The same for the entries of a table. -/
def Toml.Value.entriesStorable : List (List Char × Value) → Bool
  | [] => true
  | (_, v) :: es => v.isStorable && entriesStorable es

/-- The same for the tables of an array. -/
def Toml.Value.tablesStorable : List (List (List Char × Value)) → Bool
  | [] => true
  | es :: ts => entriesStorable es && tablesStorable ts

end

/-! ### Settings -/

/-- The value of each setting that is written, by its name. -/
abbrev Settings := List Char → Option Value

namespace Settings

/-- The value in the place that a name has among names. -/
def inOrder : List (List Char) → List Value → Settings
  | n :: ns, v :: vs => fun name => if name = n then some v else inOrder ns vs name
  | _, _ => fun _ => none

/-- The settings of a table's entries. -/
def ofEntries? (names : List (List Char)) (es : Entries) : Option Settings :=
  if (es.filter fun e => !names.contains e.1).all (·.2.isStorable) then
    some fun name => es.get? name
  else none

/-- The settings of the value in a table's place, given their names in order. -/
def ofValue? (names : List (List Char)) : Value → Option Settings
  | .table _ es => ofEntries? names es
  | .array items => some (inOrder names items)
  | .elements ts => some (inOrder names (ts.reverse.map (.table .header)))
  | .scalar .moment => some fun _ => none
  | _ => none

/-- A setting that is a text. -/
def text? : Value → Option String
  | .text cs => some (String.ofList cs)
  | _ => none

/-- The items of an array. -/
def items? : Value → Option (List Value)
  | .array items => some items
  | .elements ts => some (ts.reverse.map (.table .header))
  | _ => none

/-- A setting that is a list of texts. -/
def texts? (v : Value) : Option (List String) := (items? v).bind (·.mapM text?)

/-- The code of a rule: an integer of 32 bits without a sign. -/
def code? : Value → Option UInt32
  | .scalar (.integer n) => if 0 ≤ n ∧ n < UInt32.size then some (UInt32.ofNat n.toNat) else none
  | _ => none

/-- A setting that is a list of rule codes. -/
def codes? (v : Value) : Option (List UInt32) := (items? v).bind (·.mapM code?)

/-- A setting by its name: the default if it is left out, `none` if it is written but
has a value of the wrong kind. -/
def read? {α : Type} (s : Settings) (name : String) (ofValue? : Value → Option α)
    (default : α) : Option α :=
  match s name.toList with
  | none => some default
  | some v => ofValue? v

end Settings

/-! ### Tables of a configuration -/

/-- The names of settings, as they stand in a document. -/
def settingNames (names : List String) : List (List Char) := names.map String.toList

/-- The settings of the tool. -/
def ToolConfig.ofValue? (v : Value) : Option ToolConfig := do
  let s ← Settings.ofValue?
    (settingNames ["name", "version", "image", "release_url", "disabled_rules"]) v
  let base : ToolConfig := {}
  return {
    name := ← s.read? "name" Settings.text? base.name
    version := ← s.read? "version" Settings.text? base.version
    image := ← s.read? "image" Settings.text? base.image
    releaseUrl := ← s.read? "release_url" Settings.text? base.releaseUrl
    disabledRules := ← s.read? "disabled_rules" Settings.codes? base.disabledRules }

/-- The settings of discovery. -/
def DiscoveryConfig.ofValue? (v : Value) : Option DiscoveryConfig := do
  let s ← Settings.ofValue? (settingNames ["extensions", "exclude", "include", "allow_list"]) v
  let base : DiscoveryConfig := {}
  return {
    extensions := ← s.read? "extensions" Settings.texts? base.extensions
    excluded := ← s.read? "exclude" Settings.texts? base.excluded
    included := ← s.read? "include" Settings.texts? base.included
    allowList := ← s.read? "allow_list" Settings.text? base.allowList }

/-- The settings of the sandbox. -/
def SandboxConfig.ofValue? (v : Value) : Option SandboxConfig := do
  let s ← Settings.ofValue? (settingNames ["runtime"]) v
  let base : SandboxConfig := {}
  return { runtime := ← s.read? "runtime" Settings.text? base.runtime }

namespace Config

/-- The configuration of a document's entries. -/
def ofEntries? (es : Entries) : Option Config := do
  let s ← Settings.ofEntries? (settingNames ["tool", "discovery", "sandbox"]) es
  return {
    tool := ← s.read? "tool" ToolConfig.ofValue? {}
    discovery := ← s.read? "discovery" DiscoveryConfig.ofValue? {}
    sandbox := ← s.read? "sandbox" SandboxConfig.ofValue? {} }

/-- The configuration that a text spells, or why it spells none. -/
def ofText (s : String) : Except String Config :=
  match document? s.toList with
  | none => .error "not a TOML document"
  | some es =>
    match ofEntries? es with
    | none => .error "a setting has a value of the wrong kind"
    | some c => .ok c

end Config
end LintGate
