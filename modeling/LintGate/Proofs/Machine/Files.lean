import LintGate.Machine.Scripted
import LintGate.Proofs.Machine.Change
import LintGate.Proofs.Program.Exchange

/-!
# Machines that keep files

A machine that keeps files answers a look at them by what is there, and does to them what it is
asked to.  An operation may fail at any time, and some leave a part of their work behind then.
What a command does to the files is left open.

## Main definitions

* `Request.ChangesFiles` — the requests after which the files may be others.
* `KeepsFiles` — a machine that keeps files.
* `Exchange.temporary?`, `temporaries`, `madeUp` — what was made under a new name, and the
  names.

## Main results

* `Machine.keepsFiles` — a scripted machine keeps its files.
* `files_of_ran` — who asks for nothing that changes the files leaves them as they are.
-/

namespace LintGate

open Program

/-- Whether the files may be others after a request. -/
def Request.ChangesFiles : Request → Prop
  | .run _ | .makeDirs _ | .tempFile .. | .tempDir .. | .writeFile .. | .removeFile _
  | .removeTree _ | .rename .. => True
  | _ => False

/-- What comes of an operation on files: it is done, or it failed and left something behind. -/
inductive Attempt (done left : FileSystem → Prop) : Except OsFault Unit → FileSystem → Prop
  | ok {fs : FileSystem} (h : done fs) : Attempt done left (.ok ()) fs
  | error {fs : FileSystem} (e : OsFault) (h : left fs) : Attempt done left (.error e) fs

/-- What comes of making something with a new name in a directory: the name starts and ends as it
was told, and nothing had it. -/
inductive MakesTemp (fs : FileSystem) (dir start tail : String) (x : Node) :
    Except OsFault String → FileSystem → Prop
  | ok {fs' : FileSystem} (n : String) (hn : '/' ∉ n.toList)
      (h : fs.Creates (Path.join dir (start ++ n ++ tail)) x fs') :
      MakesTemp fs dir start tail x (.ok (Path.join dir (start ++ n ++ tail))) fs'
  | error (e : OsFault) : MakesTemp fs dir start tail x (.error e) fs

/-- A machine that keeps files. -/
structure KeepsFiles {σ : Type} (answer : (r : Request) → σ → r.Answer × σ)
    (files : σ → FileSystem) : Prop where
  look : ∀ r s, ¬ r.ChangesFiles → files (answer r s).2 = files s
  isFile : ∀ path s, (answer (.isFile path) s).1 = (files s).isFile path
  isThere : ∀ path s, (answer (.isThere path) s).1 = (files s).isThere path
  makeDirs : ∀ path s, Attempt (fun fs => (files s).makeDirs path = .ok fs)
    (fun fs => (files s).Keeps fs fun _ => True)
    (answer (.makeDirs path) s).1 (files (answer (.makeDirs path) s).2)
  tempFile : ∀ dir start tail s, MakesTemp (files s) dir start tail (.file [] false)
    (answer (.tempFile dir start tail) s).1 (files (answer (.tempFile dir start tail) s).2)
  tempDir : ∀ dir start s, MakesTemp (files s) dir start "" .empty
    (answer (.tempDir dir start) s).1 (files (answer (.tempDir dir start) s).2)
  writeFile : ∀ path content s, Attempt (fun fs => (files s).write path content false = .ok fs)
    (fun fs => (files s).Keeps fs fun l => (files s).resolve true path ≠ .ok l)
    (answer (.writeFile path content) s).1 (files (answer (.writeFile path content) s).2)
  removeFile : ∀ path s, Attempt (fun fs => (files s).removeFile path = .ok fs)
    (fun fs => fs = files s)
    (answer (.removeFile path) s).1 (files (answer (.removeFile path) s).2)
  removeTree : ∀ path s, Attempt (fun fs => (files s).removeTree path = .ok fs)
    (fun fs => (files s).Keeps fs (fun l => ∀ r, (files s).resolve false path = .ok r → ¬ r <+: l) ∧
      fs.Keeps (files s) fun _ => True)
    (answer (.removeTree path) s).1 (files (answer (.removeTree path) s).2)
  rename : ∀ source target s, Attempt (fun fs => (files s).rename source target = .ok fs)
    (fun fs => fs = files s)
    (answer (.rename source target) s).1 (files (answer (.rename source target) s).2)

/-- What was made under a new name is found under it. -/
theorem MakesTemp.adds {fs fs' : FileSystem} {dir start tail path : String} {x : Node}
    (h : MakesTemp fs dir start tail x (.ok path) fs') (hstart : start.toList ≠ [])
    (hslash : '/' ∉ start.toList ++ tail.toList) (hx : ∀ t, x ≠ .link t) :
    ∃ l, fs.Adds path l fs' := by
  cases h with
  | ok n hn h =>
    obtain ⟨l, hl, hfree, -⟩ := id h
    rw [List.mem_append, not_or] at hslash
    have hends := FileSystem.endsInSlash_join dir (n := (start ++ n ++ tail).toList)
      (by simp [hstart]) (by simp [hslash, hn])
    rw [String.ofList_toList] at hends
    exact ⟨l, ⟨hends, (FileSystem.place_eq_ok_iff.mp hl).2.1⟩, h.keeps, hl, hfree,
      h.resolve hends hx hl⟩

/-- What was made is found as it was made. -/
theorem MakesTemp.node {fs fs' : FileSystem} {dir start tail path : String} {x : Node}
    (h : MakesTemp fs dir start tail x (.ok path) fs') (hstart : start.toList ≠ [])
    (hslash : '/' ∉ start.toList ++ tail.toList) (hx : ∀ t, x ≠ .link t) :
    fs'.node path = .ok x := by
  obtain ⟨l, hadds⟩ := h.adds hstart hslash hx
  cases h with
  | ok n hn h =>
    obtain ⟨l', hl', -, rfl⟩ := h
    obtain rfl : l' = l := Except.ok.inj (hl'.symm.trans hadds.place)
    simp [FileSystem.node, hadds.found, Node.get?_put]

/-! ### Scripted machines -/

namespace Machine

theorem attempt_change {left : FileSystem → Prop} (m : Machine) (x : Except OsFault FileSystem)
    (hleft : left m.files) :
    Attempt (fun fs => x = .ok fs) left (m.change x).1 (m.change x).2.files := by
  cases x with
  | ok fs => exact .ok rfl
  | error e => exact .error e hleft

theorem slash_not_mem_toDigits (n : ℕ) : '/' ∉ Nat.toDigits 16 n := by
  have hdigit : ∀ d < 16, '/' ≠ Nat.digitChar d := by decide
  induction n using Nat.strong_induction_on with
  | _ n ih =>
    by_cases hn : n < 16
    · rw [Nat.toDigits_of_lt_base hn, List.mem_singleton]
      exact hdigit n hn
    · rw [Nat.toDigits_of_base_le (by decide) (Nat.le_of_not_lt hn), List.mem_append,
        List.mem_singleton, not_or]
      exact ⟨ih (n / 16) (by omega), hdigit _ (Nat.mod_lt n (by decide))⟩

theorem slash_not_mem_hexName (width n : ℕ) : '/' ∉ (hexName width n).toList := by
  rw [hexName, String.toList_ofList, List.mem_append, not_or]
  exact ⟨fun h => absurd (List.eq_of_mem_replicate h) (by decide), slash_not_mem_toDigits n⟩

theorem makesTemp_makeTemp (m : Machine) (dir start tail : String) (x : Node)
    (number tries : ℕ) :
    MakesTemp m.files dir start tail x (m.makeTemp dir start tail x number tries).1
      (m.makeTemp dir start tail x number tries).2.files := by
  -- a name that is taken costs one try, and the next number is tried
  induction tries generalizing number with
  | zero => exact .error _
  | succ tries ih =>
    rw [makeTemp]
    dsimp only
    split
    · exact .error _
    · next l hl =>
      split
      · exact ih (number + 1)
      · next hnone =>
        exact .ok _ (slash_not_mem_hexName 6 number) ⟨l, hl, by simpa using hnone, rfl⟩

/-- A scripted machine keeps its files. -/
theorem keepsFiles : KeepsFiles Machine.answer Machine.files where
  look r m h := by
    cases r with
    | run | makeDirs | tempFile | tempDir | writeFile | removeFile | removeTree | rename =>
      exact absurd trivial h
    | _ => rfl
  isFile _ _ := rfl
  isThere _ _ := rfl
  makeDirs _ m := attempt_change m _ (.refl _ _)
  tempFile dir start tail m := makesTemp_makeTemp m dir start tail _ _ _
  tempDir dir start m := makesTemp_makeTemp m dir start "" _ _ _
  writeFile _ _ m := attempt_change m _ (.refl _ _)
  removeFile _ m := attempt_change m _ rfl
  removeTree _ m := attempt_change m _ ⟨.refl _ _, .refl _ _⟩
  rename _ _ m := attempt_change m _ rfl

end Machine

/-! ### What each request leaves as it is -/

namespace KeepsFiles

open FileSystem

variable {σ : Type} {answer : (r : Request) → σ → r.Answer × σ} {files : σ → FileSystem}
  {s s' : σ} {path : String}

theorem files_of_look (hk : KeepsFiles answer files) {r : Request} {x : r.Answer}
    (hr : ¬ r.ChangesFiles) (h : answer r s = (x, s')) : files s' = files s := by
  have hlook := hk.look r s hr
  rwa [h] at hlook

theorem keeps_makeDirs (hk : KeepsFiles answer files) {x : Except OsFault Unit}
    (h : answer (.makeDirs path) s = (x, s')) : (files s).Keeps (files s') fun _ => True := by
  have hmake := hk.makeDirs path s
  rw [h] at hmake
  cases hmake with
  | ok hdone => exact keeps_of_makeDirs hdone
  | error e hleft => exact hleft

theorem adds_tempDir (hk : KeepsFiles answer files) {dir start : String}
    (hstart : start.toList ≠ []) (hslash : '/' ∉ start.toList)
    (h : answer (.tempDir dir start) s = (.ok path, s')) :
    ∃ l, (files s).Adds path l (files s') := by
  have hmake := hk.tempDir dir start s
  rw [h] at hmake
  exact hmake.adds hstart (by simpa using hslash) nofun

theorem adds_tempFile (hk : KeepsFiles answer files) {dir start tail : String}
    (hstart : start.toList ≠ []) (hslash : '/' ∉ start.toList ++ tail.toList)
    (h : answer (.tempFile dir start tail) s = (.ok path, s')) :
    ∃ l, (files s).Adds path l (files s') := by
  have hmake := hk.tempFile dir start tail s
  rw [h] at hmake
  exact hmake.adds hstart hslash nofun

/-- A directory with a new name has nothing in it. -/
theorem node_tempDir (hk : KeepsFiles answer files) {dir start : String}
    (hstart : start.toList ≠ []) (hslash : '/' ∉ start.toList)
    (h : answer (.tempDir dir start) s = (.ok path, s')) :
    (files s').node path = .ok .empty := by
  have hmake := hk.tempDir dir start s
  rw [h] at hmake
  exact hmake.node hstart (by simpa using hslash) nofun

/-- What is written to something new is in it. -/
theorem read_of_writeFile (hk : KeepsFiles answer files) {fs : FileSystem} {content : Bytes}
    {l : Location} (hadds : fs.Adds path l (files s))
    (h : answer (.writeFile path content) s = (.ok (), s')) :
    (files s').read path = .ok content := by
  have hwrite := hk.writeFile path content s
  rw [h] at hwrite
  cases hwrite with
  | ok hdone => exact hadds.read_of_write hdone

theorem files_of_tempDir (hk : KeepsFiles answer files) {dir start : String} {e : OsFault}
    (h : answer (.tempDir dir start) s = (.error e, s')) : files s' = files s := by
  have hmake := hk.tempDir dir start s
  rw [h] at hmake
  generalize files s' = fs at hmake ⊢
  cases hmake
  rfl

theorem files_of_tempFile (hk : KeepsFiles answer files) {dir start tail : String} {e : OsFault}
    (h : answer (.tempFile dir start tail) s = (.error e, s')) : files s' = files s := by
  have hmake := hk.tempFile dir start tail s
  rw [h] at hmake
  generalize files s' = fs at hmake ⊢
  cases hmake
  rfl

theorem keeps_writeFile (hk : KeepsFiles answer files) {content : Bytes} {x : Except OsFault Unit}
    {l : Location} (hl : (files s).resolve true path = .ok l)
    (h : answer (.writeFile path content) s = (x, s')) :
    (files s).Keeps (files s') fun l' => l' ≠ l := by
  have hwrite := hk.writeFile path content s
  rw [h] at hwrite
  cases hwrite with
  | ok hdone => exact keeps_of_write hdone hl
  | error e hleft =>
    refine hleft.mono fun l' hne hl' => hne ?_
    rw [hl] at hl'
    exact (Except.ok.inj hl').symm

/-- Removing something changes only what the path leads to, and it is not found then. -/
theorem keeps_removeTree (hk : KeepsFiles answer files) {x : Except OsFault Unit}
    (hname : EndsInName path) (h : answer (.removeTree path) s = (x, s')) :
    ((files s).Keeps (files s') fun l => ∀ r, (files s).resolve false path = .ok r → ¬ r <+: l) ∧
      ((files s').Keeps (files s) fun _ => True) ∧
      (x = .ok () → ∀ l, (files s').resolve false path ≠ .ok l) := by
  have hremove := hk.removeTree path s
  rw [h] at hremove
  cases hremove with
  | ok hdone =>
    have he := erases_of_removeTree hdone
    exact ⟨he.keeps, he.keeps_back hname.ne_nil, fun _ => he.resolve_ne hname.ne_nil⟩
  | error e hleft => exact ⟨hleft.1, hleft.2, nofun⟩

theorem keeps_removeFile (hk : KeepsFiles answer files) {x : Except OsFault Unit}
    (hname : EndsInName path) (h : answer (.removeFile path) s = (x, s')) :
    ((files s).Keeps (files s') fun l => ∀ r, (files s).resolve false path = .ok r → ¬ r <+: l) ∧
      ((files s').Keeps (files s) fun _ => True) ∧
      (x = .ok () → ∀ l, (files s').resolve false path ≠ .ok l) := by
  have hremove := hk.removeFile path s
  rw [h] at hremove
  cases hremove with
  | ok hdone =>
    have he := erases_of_removeFile hdone
    exact ⟨he.keeps, he.keeps_back hname.ne_nil, fun _ => he.resolve_ne hname.ne_nil⟩
  | error e hleft =>
    rw [hleft]
    exact ⟨.refl _ _, .refl _ _, nofun⟩

end KeepsFiles

/-! ### Runs -/

section Runs

variable {α σ : Type} {answer : (r : Request) → σ → r.Answer × σ} {files : σ → FileSystem}
  {s s' : σ} {asked : List Request}

/-- What leaves the files as they are, however often it is asked. -/
theorem files_of_ran {p : Program α} {a : α} (h : p.Ran answer s asked a s')
    (hr : ∀ r ∈ asked, ∀ u, files (answer r u).2 = files u) : files s' = files s := by
  induction p generalizing s asked with
  | done b => rw [(ran_done_iff.mp h).2.2]
  | ask r next ih =>
    obtain ⟨more, rfl, hmore⟩ := ran_ask_iff.mp h
    rw [ih _ hmore fun r' hr' => hr r' (List.mem_cons_of_mem r hr'), hr r List.mem_cons_self]

/-- What is exchanged at last. -/
theorem mem_exchanges_concat {first : List Request} {r : Request} {x : r.Answer} {u : σ}
    (hs : afterwards answer s first = u) (hr : answer r u = (x, s')) :
    (⟨r, x⟩ : Exchange) ∈ exchanges answer s (first ++ [r]) := by
  rw [exchanges_append, hs]
  simp [exchanges, hr]

/-- The path of something that was made under a new name. -/
def Exchange.temporary? : Exchange → Option String
  | ⟨.tempFile .., .ok path⟩ => some path
  | ⟨.tempDir .., .ok path⟩ => some path
  | _ => none

/-- What was made under new names. -/
def temporaries (answer : (r : Request) → σ → r.Answer × σ) (s : σ) (asked : List Request) :
    List String :=
  (exchanges answer s asked).filterMap Exchange.temporary?

/-- The names that were made up. -/
def madeUp (answer : (r : Request) → σ → r.Answer × σ) (s : σ) (asked : List Request) :
    List (List Char) :=
  (temporaries answer s asked).map FileSystem.lastName

/-- Whether a request is for something under a new name. -/
def Request.MakesTemporary : Request → Prop
  | .tempFile .. | .tempDir .. => True
  | _ => False

theorem temporaries_append (first rest : List Request) :
    temporaries answer s (first ++ rest) =
      temporaries answer s first ++ temporaries answer (afterwards answer s first) rest := by
  rw [temporaries, exchanges_append, List.filterMap_append]
  rfl

theorem temporaries_eq_nil (h : ∀ r ∈ asked, ¬ r.MakesTemporary) :
    temporaries answer s asked = [] := by
  induction asked generalizing s with
  | nil => rfl
  | cons r asked ih =>
    have hrest := ih (s := (answer r s).2) fun r' hr' => h r' (List.mem_cons_of_mem r hr')
    have hr := h r List.mem_cons_self
    cases r with
    | tempFile | tempDir => exact absurd trivial hr
    | _ => exact hrest

end Runs
end LintGate
