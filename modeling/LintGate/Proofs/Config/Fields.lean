import LintGate.Config.Read
import LintGate.Proofs.Text.Utf8
import LintGate.Proofs.Toml.Growth
import LintGate.Proofs.Toml.Written
import Mathlib.Data.Finset.Basic

/-!
# The fields of a configuration

A configuration has fields, each with a key in one of three tables.  If the entries of a document
set some of them and leave the others out, the configuration that is read has their values and
the defaults of the others; entries with other names play no part.

## Main definitions

* `Config.Group`, `Config.Field` — the tables of a configuration and their fields.
* `Config.keeping` — a configuration with the defaults of all but some fields.
* `Config.HasOnly` — entries in which only some fields are set.

## Main results

* `Config.ofEntries?_eq` — the configuration of entries that set some fields.
-/

namespace LintGate

open Toml

namespace Config

/-! ### Fields -/

/-- A table of a configuration. -/
inductive Group
  | tool
  | discovery
  | sandbox
  deriving DecidableEq, Repr

/-- A field of a configuration. -/
inductive Field
  | name
  | version
  | image
  | releaseUrl
  | disabledRules
  | extensions
  | excluded
  | included
  | allowList
  | runtime
  deriving DecidableEq, Repr

/-- The name of a table. -/
def Group.name : Group → String
  | tool => "tool"
  | discovery => "discovery"
  | sandbox => "sandbox"

/-- All tables, in the order they are written. -/
def Group.all : List Group := [tool, discovery, sandbox]

/-- The fields of a table, in the order they are written. -/
def Group.fields : Group → List Field
  | tool => [.name, .version, .image, .releaseUrl, .disabledRules]
  | discovery => [.extensions, .excluded, .included, .allowList]
  | sandbox => [.runtime]

namespace Field

/-- The table that a field stands in. -/
def group : Field → Group
  | name | version | image | releaseUrl | disabledRules => .tool
  | extensions | excluded | included | allowList => .discovery
  | runtime => .sandbox

/-- The key of a field. -/
def key : Field → String
  | name => "name"
  | version => "version"
  | image => "image"
  | releaseUrl => "release_url"
  | disabledRules => "disabled_rules"
  | extensions => "extensions"
  | excluded => "exclude"
  | included => "include"
  | allowList => "allow_list"
  | runtime => "runtime"

end Field

/-- A list of texts as it is written. -/
def textList (ss : List String) : Plain := .list (ss.map fun s => .text s.toList)

/-- A list of rule codes as it is written. -/
def codeList (rs : List UInt32) : Plain := .list (rs.map fun r => .number r.toNat)

/-- The value of a field as it is written. -/
def Field.value (c : Config) : Field → Plain
  | name => .text c.tool.name.toList
  | version => .text c.tool.version.toList
  | image => .text c.tool.image.toList
  | releaseUrl => .text c.tool.releaseUrl.toList
  | disabledRules => codeList c.tool.disabledRules
  | extensions => textList c.discovery.extensions
  | excluded => textList c.discovery.excluded
  | included => textList c.discovery.included
  | allowList => .text c.discovery.allowList.toList
  | runtime => .text c.sandbox.runtime.toList

variable (K : Finset Field) (c : Config)

/-- A configuration with the defaults of all but some fields. -/
def keeping : Config where
  tool := {
    name := if .name ∈ K then c.tool.name else ({} : ToolConfig).name
    version := if .version ∈ K then c.tool.version else ({} : ToolConfig).version
    image := if .image ∈ K then c.tool.image else ({} : ToolConfig).image
    releaseUrl := if .releaseUrl ∈ K then c.tool.releaseUrl else ({} : ToolConfig).releaseUrl
    disabledRules :=
      if .disabledRules ∈ K then c.tool.disabledRules else ({} : ToolConfig).disabledRules }
  discovery := {
    extensions :=
      if .extensions ∈ K then c.discovery.extensions else ({} : DiscoveryConfig).extensions
    excluded := if .excluded ∈ K then c.discovery.excluded else ({} : DiscoveryConfig).excluded
    included := if .included ∈ K then c.discovery.included else ({} : DiscoveryConfig).included
    allowList := if .allowList ∈ K then c.discovery.allowList else ({} : DiscoveryConfig).allowList }
  sandbox := {
    runtime := if .runtime ∈ K then c.sandbox.runtime else ({} : SandboxConfig).runtime }

/-- Each field has its own value or its default. -/
theorem value_keeping (f : Field) :
    f.value (c.keeping K) = f.value (if f ∈ K then c else {}) := by
  cases f <;> (simp only [Field.value, keeping]; split <;> rfl)

/-! ### Names -/

theorem Group.name_injective : Function.Injective fun g : Group => g.name.toList := by
  intro g g' h
  revert h
  cases g <;> cases g' <;> decide

theorem Field.key_injective : Function.Injective fun f : Field => f.key.toList := by
  intro f f' h
  revert h
  cases f <;> cases f' <;> decide

theorem Group.mem_all (g : Group) : g ∈ Group.all := by cases g <;> decide

theorem Field.mem_fields (f : Field) : f ∈ f.group.fields := by cases f <;> decide

theorem isBareKey_name (g : Group) : IsBareKey g.name.toList := by
  cases g <;> exact ⟨by decide, List.all_eq_true.mp rfl⟩

theorem isBareKey_key (f : Field) : IsBareKey f.key.toList := by
  cases f <;> exact ⟨by decide, List.all_eq_true.mp rfl⟩

variable {K c}

/-! ### Entries with some fields -/

/-- Entries of a valid document in which only some fields are set: all else has other names. -/
structure HasOnly (K : Finset Field) (es : Entries) : Prop where
  /-- Every number can be stored. -/
  storable : Value.entriesStorable es = true
  /-- What stands in the place of a table is one. -/
  table : ∀ g : Group, ∀ v, es.get? g.name.toList = some v → ∃ form inner, v = .table form inner
  unset : ∀ f : Field, f ∉ K → es.below? f.key.toList [f.group.name.toList] = none

theorem ofEntries?_eq_some {es : Entries} (names : List (List Char))
    (h : Value.entriesStorable es = true) :
    Settings.ofEntries? names es = some fun name => es.get? name := by
  refine if_pos (List.all_eq_true.mpr fun e he => ?_)
  exact Value.entriesStorable_iff.mp h e (List.mem_of_mem_filter he)

end Config

namespace Settings

variable {α : Type} {s : Settings} {name : String} {ofValue? : Value → Option α}

theorem read?_eq_ite {a default : α} {p : Prop} [Decidable p] {v : Value}
    (h : s name.toList = if p then some v else none) (hv : ofValue? v = some a) :
    s.read? name ofValue? default = some (if p then a else default) := by
  rw [read?, h]
  split
  · next hp =>
    split at hp
    · cases hp
    · next hnot => rw [if_neg hnot]
  · next hp =>
    split at hp
    · next hyes =>
      cases hp
      rw [if_pos hyes, hv]
    · cases hp

theorem text?_value (t : String) : text? (Plain.text t.toList).value = some t := by
  rw [Plain.value, text?, String.ofList_toList]

theorem texts?_value (ts : List String) : texts? (Config.textList ts).value = some ts := by
  have hitems : items? (Config.textList ts).value = some (ts.map fun t => .text t.toList) := by
    simp [Config.textList, Plain.value, items?, Item.value]
  rw [texts?, hitems, Option.bind_some]
  exact mapM_map_eq_some (fun t => by rw [text?, String.ofList_toList]) ts

theorem codes?_value (rs : List UInt32) : codes? (Config.codeList rs).value = some rs := by
  have hitems : items? (Config.codeList rs).value =
      some (rs.map fun r => .scalar (.integer r.toNat)) := by
    simp [Config.codeList, Plain.value, items?, Item.value]
  rw [codes?, hitems, Option.bind_some]
  refine mapM_map_eq_some (fun r => ?_) rs
  have hr : r.toNat < UInt32.size := r.toNat_lt_size
  rw [code?, if_pos ⟨by omega, by omega⟩, Int.toNat_natCast, UInt32.ofNat_toNat]

end Settings

namespace Config

variable {K : Finset Field} {c : Config} {es : Entries}

/-- Settings with the values of some fields of a table. -/
def Holds (K : Finset Field) (c : Config) (g : Group) (s : Settings) : Prop :=
  ∀ f : Field, f.group = g → s f.key.toList = if f ∈ K then some (f.value c).value else none

/-- The settings of a table; one that is left out is read as one without entries. -/
theorem exists_settings {α : Type} {ofValue? : Value → Option α} {default : α}
    (hempty : ofValue? (.table .header []) = some default) (h : HasOnly K es)
    (hset : ∀ f ∈ K, es.below? f.key.toList [f.group.name.toList] = some (f.value c).value)
    (g : Group) :
    ∃ v s, (∀ names, Settings.ofValue? names v = some s) ∧ Holds K c g s ∧
      Settings.read? (fun name => es.get? name) g.name ofValue? default = ofValue? v := by
  have hfield : ∀ f : Field, es.below? f.key.toList [f.group.name.toList] =
      if f ∈ K then some (f.value c).value else none := by
    intro f
    split
    · next hf => exact hset f hf
    · next hf => exact h.unset f hf
  rw [Settings.read?]
  cases hget : es.get? g.name.toList with
  | none =>
    refine ⟨.table .header [], fun _ => none, fun names => rfl, ?_, hempty.symm⟩
    rintro f rfl
    rw [← hfield f, Entries.below?, hget]
  | some v =>
    obtain ⟨form, inner, rfl⟩ := h.table g v hget
    have hinner : Value.entriesStorable inner = true := by
      have hv := Value.entriesStorable_iff.mp h.storable _ (Entries.mem_of_get? hget)
      rwa [Value.isStorable] at hv
    refine ⟨.table form inner, fun name => Entries.get? name inner,
      fun names => ofEntries?_eq_some names hinner, ?_, rfl⟩
    rintro f rfl
    rw [← hfield f, Entries.below?_cons_of_table hget, Entries.below?]

section Tables

variable {v : Value} {s : Settings}

theorem tool_ofValue?_eq (hs : ∀ names, Settings.ofValue? names v = some s)
    (h : Holds K c .tool s) : ToolConfig.ofValue? v = some (c.keeping K).tool := by
  let base : ToolConfig := {}
  have hname : s.read? "name" Settings.text? base.name = _ :=
    Settings.read?_eq_ite (h .name rfl) (Settings.text?_value _)
  have hversion : s.read? "version" Settings.text? base.version = _ :=
    Settings.read?_eq_ite (h .version rfl) (Settings.text?_value _)
  have himage : s.read? "image" Settings.text? base.image = _ :=
    Settings.read?_eq_ite (h .image rfl) (Settings.text?_value _)
  have hreleaseUrl : s.read? "release_url" Settings.text? base.releaseUrl = _ :=
    Settings.read?_eq_ite (h .releaseUrl rfl) (Settings.text?_value _)
  have hrules : s.read? "disabled_rules" Settings.codes? base.disabledRules = _ :=
    Settings.read?_eq_ite (h .disabledRules rfl) (Settings.codes?_value _)
  simp only [ToolConfig.ofValue?, hs, Option.bind_eq_bind, Option.bind_some]
  rw [hname, hversion, himage, hreleaseUrl, hrules]
  rfl

theorem discovery_ofValue?_eq (hs : ∀ names, Settings.ofValue? names v = some s)
    (h : Holds K c .discovery s) : DiscoveryConfig.ofValue? v = some (c.keeping K).discovery := by
  let base : DiscoveryConfig := {}
  have hextensions : s.read? "extensions" Settings.texts? base.extensions = _ :=
    Settings.read?_eq_ite (h .extensions rfl) (Settings.texts?_value _)
  have hexcluded : s.read? "exclude" Settings.texts? base.excluded = _ :=
    Settings.read?_eq_ite (h .excluded rfl) (Settings.texts?_value _)
  have hincluded : s.read? "include" Settings.texts? base.included = _ :=
    Settings.read?_eq_ite (h .included rfl) (Settings.texts?_value _)
  have hallowList : s.read? "allow_list" Settings.text? base.allowList = _ :=
    Settings.read?_eq_ite (h .allowList rfl) (Settings.text?_value _)
  simp only [DiscoveryConfig.ofValue?, hs, Option.bind_eq_bind, Option.bind_some]
  rw [hextensions, hexcluded, hincluded, hallowList]
  rfl

theorem sandbox_ofValue?_eq (hs : ∀ names, Settings.ofValue? names v = some s)
    (h : Holds K c .sandbox s) : SandboxConfig.ofValue? v = some (c.keeping K).sandbox := by
  let base : SandboxConfig := {}
  have hruntime : s.read? "runtime" Settings.text? base.runtime = _ :=
    Settings.read?_eq_ite (h .runtime rfl) (Settings.text?_value _)
  simp only [SandboxConfig.ofValue?, hs, Option.bind_eq_bind, Option.bind_some]
  rw [hruntime]
  rfl

end Tables

/-- **The configuration that entries give** if some fields have the values of a configuration and
the others are left out. -/
theorem ofEntries?_eq (h : HasOnly K es)
    (hset : ∀ f ∈ K, es.below? f.key.toList [f.group.name.toList] = some (f.value c).value) :
    ofEntries? es = some (c.keeping K) := by
  have hempty : ToolConfig.ofValue? (.table .header []) = some {} := rfl
  have hempty' : DiscoveryConfig.ofValue? (.table .header []) = some {} := rfl
  have hempty'' : SandboxConfig.ofValue? (.table .header []) = some {} := rfl
  obtain ⟨v, s, hs, hholds, htool⟩ := exists_settings hempty h hset .tool
  obtain ⟨v', s', hs', hholds', hdiscovery⟩ := exists_settings hempty' h hset .discovery
  obtain ⟨v'', s'', hs'', hholds'', hsandbox⟩ := exists_settings hempty'' h hset .sandbox
  simp only [Group.name] at htool hdiscovery hsandbox
  simp only [ofEntries?, ofEntries?_eq_some _ h.storable, Option.bind_eq_bind, Option.bind_some]
  rw [htool, hdiscovery, hsandbox, tool_ofValue?_eq hs hholds, discovery_ofValue?_eq hs' hholds',
    sandbox_ofValue?_eq hs'' hholds'']
  rfl

end Config
end LintGate
