import LintGate.Proofs.Toml.Entries
import LintGate.Toml.Document

/-!
# Entries that are read stay

What a token does to the entries so far does not depend on them: it makes one entry, opens one
table, or leaves them as they are.  Either way the entries that are there stay.

## Main definitions

* `Entries.below?` — the value of a key in a table that others lead to.
* `Entries.Keeps` — strings, scalars and lists stay what they are, and tables stay tables.
* `Effect` — what can be done to the entries.
* `Reader.Uniform` — a step that does the same whatever the entries are.

## Main results

* `Effect.keeps` — what is done to the entries keeps them.
* `Reader.uniform_run` — what tokens do does not depend on the entries.
* `Reader.keeps_of_finish` — the end of a document keeps them.
-/

namespace LintGate
namespace Toml

/-- What may become of a value: tables may grow. -/
def Value.Stays (v w : Value) : Prop :=
  match v with
  | .table .. => ∃ form es, w = .table form es
  | .elements _ => ∃ ts, w = .elements ts
  | v => w = v

namespace Value

theorem Stays.refl (v : Value) : v.Stays v := by
  cases v with
  | table form es => exact ⟨form, es, rfl⟩
  | elements ts => exact ⟨ts, rfl⟩
  | text s => rfl
  | scalar s => rfl
  | array items => rfl

theorem Stays.trans {u v w : Value} (h : u.Stays v) (h' : v.Stays w) : u.Stays w := by
  cases u with
  | table form es =>
    obtain ⟨_, _, rfl⟩ := h
    exact h'
  | elements ts =>
    obtain ⟨_, rfl⟩ := h
    exact h'
  | text s => cases h; exact h'
  | scalar s => cases h; exact h'
  | array items => cases h; exact h'

end Value

namespace Entries

variable {es es' es'' inner inner' : Entries} {k : List Char} {v w : Value} {form form' : TableForm}

/-- The value of a key in the table that a path leads to. -/
def below? (key : List Char) : KeyPath → Entries → Option Value
  | [], es => es.get? key
  | k :: path, es =>
    match es.get? k with
    | some (.table _ inner) => below? key path inner
    | _ => none

theorem below?_cons_of_table {path : KeyPath} {key : List Char}
    (h : es.get? k = some (.table form inner)) :
    es.below? key (k :: path) = inner.below? key path := by
  rw [below?, h]

/-- All entries stay. -/
def Keeps (es es' : Entries) : Prop :=
  ∀ path key v, es.below? key path = some v → ∃ w, es'.below? key path = some w ∧ v.Stays w

theorem Keeps.refl (es : Entries) : es.Keeps es := fun _ _ v h => ⟨v, h, .refl v⟩

theorem Keeps.trans (h : es.Keeps es') (h' : es'.Keeps es'') : es.Keeps es'' := by
  intro path key v hv
  obtain ⟨w, hw, hvw⟩ := h path key v hv
  obtain ⟨u, hu, hwu⟩ := h' path key w hw
  exact ⟨u, hu, hvw.trans hwu⟩

/-- An entry that is set keeps the others, and itself if its value stays and the table below it
is kept. -/
theorem keeps_set (hstays : ∀ u, es.get? k = some u → u.Stays v)
    (hbelow : ∀ form inner, es.get? k = some (.table form inner) →
      ∃ form' inner', v = .table form' inner' ∧ Keeps inner inner') : es.Keeps (es.set k v) := by
  intro path key u hu
  cases path with
  | nil =>
    rw [below?, get?_set]
    split
    · next hk => exact ⟨v, rfl, hstays u (hk ▸ hu)⟩
    · exact ⟨u, hu, .refl u⟩
  | cons k' path =>
    rw [below?] at hu
    split at hu
    · next form inner hget =>
      by_cases hk : k = k'
      · obtain ⟨form', inner', rfl, hkeeps⟩ := hbelow form inner (hk ▸ hget)
        rw [below?_cons_of_table (by rw [get?_set, if_pos hk])]
        exact hkeeps path key u hu
      · rw [below?_cons_of_table (by rw [get?_set, if_neg hk]; exact hget)]
        exact ⟨u, hu, .refl u⟩
    · cases hu

theorem keeps_set_of_none (h : es.get? k = none) (v : Value) : es.Keeps (es.set k v) :=
  keeps_set (fun u hu => by rw [h] at hu; cases hu) fun _ _ hu => by rw [h] at hu; cases hu

theorem keeps_set_table (h : es.get? k = some (.table form inner)) (hinner : inner.Keeps inner')
    (form' : TableForm) : es.Keeps (es.set k (.table form' inner')) := by
  refine keeps_set (fun u hu => ?_) fun f t ht => ⟨form', inner', rfl, ?_⟩
  · rw [h] at hu
    cases hu
    exact ⟨form', inner', rfl⟩
  · rw [h] at ht
    cases ht
    exact hinner

theorem keeps_set_elements {ts ts' : List (List (List Char × Value))}
    (h : es.get? k = some (.elements ts)) : es.Keeps (es.set k (.elements ts')) := by
  refine keeps_set (fun u hu => ?_) fun f t ht => ?_
  · rw [h] at hu
    cases hu
    exact ⟨ts', rfl⟩
  · rw [h] at ht
    cases ht

/-! ### What lines do -/

theorem keeps_of_add? (h : es.add? k v = some es') : es.Keeps es' := by
  unfold add? at h
  split at h
  · cases h
  · next hk =>
    cases h
    exact keeps_set_of_none hk v

theorem keeps_of_openTable (h : openTable k form es = some es') : es.Keeps es' := by
  unfold openTable at h
  split at h
  · next hk =>
    cases h
    exact keeps_set_of_none hk _
  · next inner hk =>
    cases h
    exact keeps_set_table hk (.refl inner) _
  · cases h

theorem keeps_of_openElement (h : openElement k form es = some es') : es.Keeps es' := by
  unfold openElement at h
  split at h
  · next hk =>
    cases h
    exact keeps_set_of_none hk _
  · next ts hk =>
    cases h
    exact keeps_set_elements hk
  · cases h

/-- A path leads to what is changed, and the tables on the way stay. -/
theorem keeps_of_enter {assigning : Bool} {change : TableForm → Entries → Option Entries}
    (hchange : ∀ form es es', change form es = some es' → es.Keeps es') {path : KeyPath}
    (h : enter assigning change form path es = some es') : es.Keeps es' := by
  induction path generalizing form es es' with
  | nil => exact hchange form es es' h
  | cons k path ih =>
    unfold enter at h
    split at h
    · next hk =>
      obtain ⟨inner, -, rfl⟩ := Option.map_eq_some_iff.mp h
      exact keeps_set_of_none hk _
    · cases h
    · next f inner _ hk =>
      split at h
      · cases h
      · obtain ⟨inner', hinner, rfl⟩ := Option.map_eq_some_iff.mp h
        exact keeps_set_table hk (ih hinner) f
    · next last front hk =>
      obtain ⟨last', -, rfl⟩ := Option.map_eq_some_iff.mp h
      exact keeps_set_elements hk
    · cases h

theorem keeps_of_within {change : Entries → Option Entries}
    (hchange : ∀ es es', change es = some es' → es.Keeps es') {path : KeyPath}
    (h : within change path es = some es') : es.Keeps es' := by
  induction path generalizing es es' with
  | nil => exact hchange es es' h
  | cons k path ih =>
    unfold within at h
    split at h
    · next f inner hk =>
      obtain ⟨inner', hinner, rfl⟩ := Option.map_eq_some_iff.mp h
      exact keeps_set_table hk (ih hinner) f
    · next last front hk =>
      obtain ⟨last', -, rfl⟩ := Option.map_eq_some_iff.mp h
      exact keeps_set_elements hk
    · cases h

theorem keeps_of_assign {path : KeyPath} (h : assign form path v es = some es') :
    es.Keeps es' := by
  unfold assign at h
  split at h
  · cases h
  · refine keeps_of_enter (fun form es es' hlast => ?_) h
    unfold assignLast at hlast
    split at hlast
    · cases hlast
    · exact keeps_of_add? hlast

end Entries
/-! ### What a step does -/

/-- What can be done to the entries so far and the table that is open. -/
inductive Effect : (Entries × KeyPath → Option (Entries × KeyPath)) → Prop
  | nothing : Effect some
  | assign (key : KeyPath) (v : Value) : Effect fun x =>
      (Entries.within (Entries.assign .header key v) x.2 x.1).map (·, x.2)
  | heading (double : Bool) (key : List Char) (path : KeyPath) : Effect fun x =>
      (Entries.enter false (if double then Entries.openElement key else Entries.openTable key)
        .header path.reverse x.1).map (·, (key :: path).reverse)
  | followed {e e' : Entries × KeyPath → Option (Entries × KeyPath)} (h : Effect e)
      (h' : Effect e') : Effect fun x => (e x).bind e'

namespace Effect

variable {e : Entries × KeyPath → Option (Entries × KeyPath)}

/-- **What is done to the entries keeps them.** -/
theorem keeps (h : Effect e) {x y : Entries × KeyPath} (hxy : e x = some y) : x.1.Keeps y.1 := by
  induction h generalizing x y with
  | nothing =>
    cases hxy
    exact .refl _
  | assign key v =>
    obtain ⟨root, hroot, rfl⟩ := Option.map_eq_some_iff.mp hxy
    exact Entries.keeps_of_within (fun _ _ => Entries.keeps_of_assign) hroot
  | heading double key path =>
    obtain ⟨root, hroot, rfl⟩ := Option.map_eq_some_iff.mp hxy
    refine Entries.keeps_of_enter (fun form es es' hchange => ?_) hroot
    cases double with
    | false =>
      have hopen : Entries.openTable key form es = some es' := hchange
      exact Entries.keeps_of_openTable hopen
    | true =>
      have hopen : Entries.openElement key form es = some es' := hchange
      exact Entries.keeps_of_openElement hopen
  | followed _ _ ih ih' =>
    obtain ⟨z, hz, hzy⟩ := Option.bind_eq_some_iff.mp hxy
    exact (ih hz).trans (ih' hzy)

/-- The table that is open stays so, or another is open whatever it was. -/
theorem table_cases (h : Effect e) :
    (∀ x y, e x = some y → y.2 = x.2) ∨ ∀ x y, e x = some y → y.2 ≠ [] := by
  induction h with
  | nothing =>
    refine Or.inl fun x y hxy => ?_
    cases hxy
    rfl
  | assign key v =>
    refine Or.inl fun x y hxy => ?_
    obtain ⟨root, -, rfl⟩ := Option.map_eq_some_iff.mp hxy
    rfl
  | heading double key path =>
    refine Or.inr fun x y hxy => ?_
    obtain ⟨root, -, rfl⟩ := Option.map_eq_some_iff.mp hxy
    simp
  | followed h h' ih ih' =>
    rcases ih' with hstay | hopen
    · rcases ih with hstay' | hopen'
      · refine Or.inl fun x y hxy => ?_
        obtain ⟨z, hz, hzy⟩ := Option.bind_eq_some_iff.mp hxy
        rw [hstay z y hzy, hstay' x z hz]
      · refine Or.inr fun x y hxy => ?_
        obtain ⟨z, hz, hzy⟩ := Option.bind_eq_some_iff.mp hxy
        rw [hstay z y hzy]
        exact hopen' x z hz
    · refine Or.inr fun x y hxy => ?_
      obtain ⟨z, -, hzy⟩ := Option.bind_eq_some_iff.mp hxy
      exact hopen z y hzy

end Effect

/-- A reader but for the entries so far and the table that is open. -/
structure Shape where
  stack : List Frame := []
  key : KeyPath := []
  phase : Phase := .line

/-- The reader with some entries and an open table. -/
def Shape.on (s : Shape) (x : Entries × KeyPath) : Reader := ⟨x.1, x.2, s.stack, s.key, s.phase⟩

namespace Reader

/-- A step that does the same to all entries, and leads to the same shape. -/
def Uniform (f : Entries × KeyPath → Option Reader) : Prop :=
  (∀ x, f x = none) ∨ ∃ e, ∃ s : Shape, Effect e ∧ ∀ x, f x = (e x).map s.on

variable {f : Entries × KeyPath → Option Reader} {g : Reader → Option Reader}

theorem uniform_none : Uniform fun _ => none := Or.inl fun _ => rfl

theorem uniform_some (s : Shape) : Uniform fun x => some (s.on x) :=
  Or.inr ⟨some, s, .nothing, fun _ => rfl⟩

theorem Uniform.bind (hf : Uniform f) (hg : ∀ s : Shape, Uniform fun x => g (s.on x)) :
    Uniform fun x => (f x).bind g := by
  rcases hf with hnone | ⟨e, s, he, hf⟩
  · refine Or.inl fun x => ?_
    dsimp only
    rw [hnone, Option.bind_none]
  · rcases hg s with hnone | ⟨e', s', he', hg⟩
    · refine Or.inl fun x => ?_
      dsimp only
      rw [hf, Option.bind_map]
      cases e x with
      | none => rfl
      | some y => exact hnone y
    · refine Or.inr ⟨_, s', he.followed he', fun x => ?_⟩
      dsimp only
      rw [hf, Option.bind_map]
      cases e x with
      | none => rfl
      | some y => exact hg y

/-- A step that is taken if something is found that does not depend on the entries. -/
theorem uniform_map {α : Type} (o : Option α) (s : α → Shape) :
    Uniform fun x => o.map fun a => (s a).on x := by
  cases o with
  | none => exact uniform_none
  | some a => exact uniform_some (s a)

theorem uniform_complete (s : Shape) (v : Value) : Uniform fun x => (s.on x).complete v := by
  obtain ⟨stack, key, phase⟩ := s
  match stack with
  | .array items :: fs => exact uniform_some ⟨.array (v :: items) :: fs, key, .done⟩
  | .inline es path :: fs =>
    exact uniform_map (Entries.assign .header path v es) fun es => ⟨.inline es [] :: fs, key, .done⟩
  | [] =>
    refine Or.inr ⟨_, ⟨[], [], .done⟩, .assign key v, fun x => ?_⟩
    rw [Option.map_map]
    rfl

theorem uniform_closeArray (s : Shape) : Uniform fun x => (s.on x).closeArray := by
  obtain ⟨stack, key, phase⟩ := s
  match stack with
  | .array items :: fs => exact uniform_complete ⟨fs, key, phase⟩ (.array items.reverse)
  | .inline _ _ :: _ | [] => exact uniform_none

theorem uniform_closeInline (s : Shape) : Uniform fun x => (s.on x).closeInline := by
  obtain ⟨stack, key, phase⟩ := s
  match stack with
  | .inline es _ :: fs => exact uniform_complete ⟨fs, key, phase⟩ (.table .inline es)
  | .array _ :: _ | [] => exact uniform_none

theorem uniform_push (s : Shape) (frame : Frame) (due : Phase) :
    Uniform fun x => (s.on x).push frame due := by
  by_cases h : s.stack.length < maxDepth
  · have hpush : ∀ x, (s.on x).push frame due =
        some (Shape.on ⟨frame :: s.stack, s.key, due⟩ x) := fun x => if_pos h
    simp only [hpush]
    exact uniform_some _
  · exact Or.inl fun x => if_neg h

theorem uniform_startValue (s : Shape) (t : Token) : Uniform fun x => (s.on x).startValue t := by
  cases t with
  | text oneLine cs => exact uniform_complete s (.text cs)
  | atom cs => exact uniform_some ⟨s.stack, s.key, .scalar cs.reverse⟩
  | dot => exact uniform_some ⟨s.stack, s.key, .scalar ['.']⟩
  | openBracket => exact uniform_push s (.array []) .item
  | openBrace => exact uniform_push s (.inline [] []) .entry
  | _ => exact uniform_none

theorem uniform_afterValue (s : Shape) (t : Token) : Uniform fun x => (s.on x).afterValue t := by
  cases t with
  | blank cs => exact uniform_some s
  | newline =>
    obtain ⟨stack, key, phase⟩ := s
    match stack with
    | [] => exact uniform_some ⟨[], key, .line⟩
    | f :: fs => exact uniform_some ⟨f :: fs, key, phase⟩
  | comma =>
    obtain ⟨stack, key, phase⟩ := s
    match stack with
    | .array items :: fs => exact uniform_some ⟨.array items :: fs, key, .item⟩
    | .inline es path :: fs => exact uniform_some ⟨.inline es path :: fs, key, .entry⟩
    | [] => exact uniform_none
  | closeBracket => exact uniform_closeArray s
  | closeBrace => exact uniform_closeInline s
  | _ => exact uniform_none

theorem uniform_endScalar (s : Shape) (read : List Char) :
    Uniform fun x => (s.on x).endScalar read := by
  have hend : ∀ x, (s.on x).endScalar read =
      (Scalar.ofText? read.reverse).bind fun v => (s.on x).complete (.scalar v) := fun x => rfl
  simp only [hend]
  cases Scalar.ofText? read.reverse with
  | none => exact uniform_none
  | some v => exact uniform_complete s (.scalar v)

theorem uniform_openHeader (s : Shape) (double : Bool) (read : KeyPath) :
    Uniform fun x => (s.on x).openHeader double read := by
  cases read with
  | nil => exact uniform_none
  | cons key path =>
    refine Or.inr ⟨_, ⟨s.stack, s.key, .done⟩, .heading double key path, fun x => ?_⟩
    rw [Option.map_map]
    rfl

theorem uniform_endKey (s : Shape) (place : KeyPlace) (read : KeyPath) :
    Uniform fun x => (s.on x).endKey place read := by
  obtain ⟨stack, key, phase⟩ := s
  match place, stack with
  | .line, stack => exact uniform_some ⟨stack, read.reverse, .value⟩
  | .inline, .inline es _ :: fs => exact uniform_some ⟨.inline es read.reverse :: fs, key, .value⟩
  | .inline, .array _ :: _ | .inline, [] | .header _, _ => exact uniform_none

/-- A part of a key leads to the same phase whatever the entries are. -/
theorem uniform_keyPart (s : Shape) (t : Token) (due : List Char → Phase) :
    Uniform fun x => (keyPart? t).map fun k => { s.on x with phase := due k } :=
  uniform_map (keyPart? t) fun k => { s with phase := due k }

theorem uniform_afterScalar (s : Shape) (read : List Char) (t : Token) :
    Uniform fun x => ((s.on x).endScalar read).bind (·.afterValue t) :=
  (uniform_endScalar s read).bind fun s => uniform_afterValue s t

/-- What follows a part of a key. -/
theorem uniform_keyEnd (stack : List Frame) (key : KeyPath) (place : KeyPlace) (read : KeyPath)
    (t : Token) : Uniform fun x => (Shape.on ⟨stack, key, .keyEnd place read⟩ x).step t := by
  have hequals := uniform_endKey ⟨stack, key, .keyEnd place read⟩ place read
  cases t with
  | blank => exact uniform_some ⟨stack, key, .keyEnd place read⟩
  | dot =>
    by_cases h : read.length < maxParts
    · have hdot : ∀ x, (Shape.on ⟨stack, key, .keyEnd place read⟩ x).step .dot =
          some (Shape.on ⟨stack, key, .keyPart place read⟩ x) := fun x => if_pos h
      simp only [hdot]
      exact uniform_some _
    · exact Or.inl fun x => if_neg h
  | closeBracket =>
    match place with
    | .header false => exact uniform_openHeader ⟨stack, key, .keyEnd (.header false) read⟩ false read
    | .header true => exact uniform_some ⟨stack, key, .headerEnd read⟩
    | .line | .inline => exact uniform_none
  | newline =>
    match place with
    | .inline => exact uniform_some ⟨stack, key, .equals read⟩
    | .line | .header false | .header true => exact uniform_none
  | equals =>
    match place with
    | .line | .inline | .header false | .header true => exact hequals
  | text | atom | comma | openBracket | openBrace | closeBrace =>
    match place with
    | .line | .inline | .header false | .header true => exact uniform_none

/-- **What a token does** does not depend on the entries. -/
theorem uniform_step (s : Shape) (t : Token) : Uniform fun x => (s.on x).step t := by
  obtain ⟨stack, key, phase⟩ := s
  cases phase with
  | line =>
    have hkey := uniform_keyPart ⟨stack, key, .line⟩ t fun k => .keyEnd .line [k]
    cases t with
    | newline | blank => exact uniform_some ⟨stack, key, .line⟩
    | openBracket => exact uniform_some ⟨stack, key, .header⟩
    | _ => exact hkey
  | header =>
    have hkey := uniform_keyPart ⟨stack, key, .header⟩ t fun k => .keyEnd (.header false) [k]
    cases t with
    | openBracket => exact uniform_some ⟨stack, key, .keyPart (.header true) []⟩
    | blank => exact uniform_some ⟨stack, key, .keyPart (.header false) []⟩
    | _ => exact hkey
  | keyPart place read =>
    have hkey :=
      uniform_keyPart ⟨stack, key, .keyPart place read⟩ t fun k => .keyEnd place (k :: read)
    cases t with
    | blank => exact uniform_some ⟨stack, key, .keyPart place read⟩
    | _ => exact hkey
  | keyEnd place read => exact uniform_keyEnd stack key place read t
  | equals read =>
    cases t with
    | newline | blank => exact uniform_some ⟨stack, key, .equals read⟩
    | equals => exact uniform_endKey ⟨stack, key, .equals read⟩ .inline read
    | _ => exact uniform_none
  | headerEnd read =>
    cases t with
    | closeBracket => exact uniform_openHeader ⟨stack, key, .headerEnd read⟩ true read
    | _ => exact uniform_none
  | value =>
    have hstart := uniform_startValue ⟨stack, key, .value⟩ t
    cases t with
    | blank => exact uniform_some ⟨stack, key, .value⟩
    | newline =>
      match stack with
      | [] => exact uniform_none
      | f :: fs => exact uniform_some ⟨f :: fs, key, .value⟩
    | _ => exact hstart
  | item =>
    have hstart := uniform_startValue ⟨stack, key, .item⟩ t
    cases t with
    | newline | blank => exact uniform_some ⟨stack, key, .item⟩
    | closeBracket => exact uniform_closeArray ⟨stack, key, .item⟩
    | _ => exact hstart
  | entry =>
    have hkey := uniform_keyPart ⟨stack, key, .entry⟩ t fun k => .keyEnd .inline [k]
    cases t with
    | newline | blank => exact uniform_some ⟨stack, key, .entry⟩
    | closeBrace => exact uniform_closeInline ⟨stack, key, .entry⟩
    | _ => exact hkey
  | scalar read =>
    have hend := uniform_afterScalar ⟨stack, key, .scalar read⟩ read t
    cases t with
    | atom cs => exact uniform_some ⟨stack, key, .scalar (cs.reverse ++ read)⟩
    | dot => exact uniform_some ⟨stack, key, .scalar ('.' :: read)⟩
    | blank cs =>
      -- One blank between a date and a time is the only blank that does not end the value.
      by_cases h : cs = [' '] ∧ isDate read.reverse
      · have hgap : ∀ x, (Shape.on ⟨stack, key, .scalar read⟩ x).step (.blank cs) =
            some (Shape.on ⟨stack, key, .gap read⟩ x) := fun x => if_pos h
        simp only [hgap]
        exact uniform_some _
      · have hstop : ∀ x, (Shape.on ⟨stack, key, .scalar read⟩ x).step (.blank cs) =
            (Shape.on ⟨stack, key, .scalar read⟩ x).endScalar read := fun x => if_neg h
        simp only [hstop]
        exact uniform_endScalar _ read
    | _ => exact hend
  | gap read =>
    have hend := uniform_afterScalar ⟨stack, key, .gap read⟩ read t
    cases t with
    | atom cs => exact uniform_some ⟨stack, key, .scalar (cs.reverse ++ ' ' :: read)⟩
    | _ => exact hend
  | done => exact uniform_afterValue ⟨stack, key, .done⟩ t

/-- **What tokens do** does not depend on the entries. -/
theorem uniform_run (s : Shape) (ts : List Token) :
    Uniform fun x => ts.foldlM step (s.on x) := by
  induction ts generalizing s with
  | nil => exact uniform_some s
  | cons t ts ih => exact (uniform_step s t).bind ih

variable {s : Shape} {x : Entries × KeyPath} {r : Reader} {es : Entries}

/-- A step keeps the entries. -/
theorem Uniform.keeps (hf : Uniform f) (h : f x = some r) : x.1.Keeps r.root := by
  rcases hf with hnone | ⟨e, s, he, hf⟩
  · rw [hnone] at h
    cases h
  · rw [hf] at h
    obtain ⟨y, hy, rfl⟩ := Option.map_eq_some_iff.mp h
    exact he.keeps hy

/-- The end of a document keeps the entries. -/
theorem keeps_of_finish (h : r.finish = some es) : r.root.Keeps es := by
  have hclose : ∀ {r : Reader}, (if r.stack.isEmpty then some r.root else none) = some es →
      r.root = es := by
    intro r hr
    split at hr
    · exact Option.some.inj hr
    · cases hr
  obtain ⟨root, table, stack, key, phase⟩ := r
  have hscalar : ∀ read, ((Reader.mk root table stack key phase).endScalar read).bind
      (fun r => if r.stack.isEmpty then some r.root else none) = some es → root.Keeps es := by
    intro read hread
    obtain ⟨r', hr', hread⟩ := Option.bind_eq_some_iff.mp hread
    rw [← hclose hread]
    exact (uniform_endScalar ⟨stack, key, phase⟩ read).keeps (x := (root, table)) hr'
  cases phase with
  | scalar read | gap read => exact hscalar read h
  | line | done =>
    rw [← hclose h]
    exact .refl root
  | _ => cases h

end Reader
end Toml
end LintGate
