import LintGate.Proofs.Discovery.Order

/-!
# What the oracle is asked

The oracle may remember what it was asked, and answer one script in another way than the next.
It is asked about the candidates in the order of the walk, about each once, up to the first
fault.

## Main definitions

* `replies` — what an oracle answers about scripts in turn.
* `notIgnored` — the scripts that are left by some answers.
* `inquire` — what is found in a tree, and what the oracle was asked.

## Main results

* `run_sift_noting_of_error`, `run_sift_noting_of_ok` — an inquiry with a fault and one without.
* `run_find_eq_inquire` — a search on a machine is an inquiry.
* `find_inquires` — **the oracle is asked in the order of the walk, up to the first fault.**
-/

namespace LintGate
namespace Discovery

section Oracle

variable {σ : Type} (oracle : ScriptPath → σ → Except Fault Bool × σ)

/-- What an oracle answers if it is asked about scripts in turn, whatever it answers. -/
def replies : σ → List ScriptPath → List (Except Fault Bool)
  | _, [] => []
  | u, s :: ss => (oracle s u).1 :: replies (oracle s u).2 ss

/-- The scripts that are not ignored by the answers to them. -/
def notIgnored : List ScriptPath → List (Except Fault Bool) → List ScriptPath
  | s :: ss, .ok false :: rs => s :: notIgnored ss rs
  | _ :: ss, _ :: rs => notIgnored ss rs
  | _, _ => []

/-- An oracle that notes what it is asked. -/
def noting (s : ScriptPath) : ExceptT Fault (StateM (σ × List ScriptPath)) Bool :=
  ExceptT.mk fun u => ((oracle s u.1).1, (oracle s u.1).2, u.2 ++ [s])

/-- What is found in a tree with the help of an oracle, and what the oracle was asked. -/
def inquire (u : σ) (f : Filter) (root : Option Entry) :
    Except Fault (List ScriptPath) × List ScriptPath :=
  let (x, _, asked) := (find f (noting oracle) root).run.run (u, [])
  (x, asked)

variable {oracle} {u : σ} {asked : List ScriptPath} {s : ScriptPath} {ss : List ScriptPath}

/-- The first script is asked about, and a fault is the last thing that happens. -/
theorem run_sift_noting_cons :
    (sift (noting oracle) (s :: ss)).run.run (u, asked) =
      match (oracle s u).1 with
      | .error e => (.error e, (oracle s u).2, asked ++ [s])
      | .ok b =>
        let (x, v) := (sift (noting oracle) ss).run.run ((oracle s u).2, asked ++ [s])
        (x.map fun found => if b then found else s :: found, v) := by
  have hnoting : (noting oracle s).run.run (u, asked) =
      ((oracle s u).1, (oracle s u).2, asked ++ [s]) := rfl
  rw [sift, ExceptT.run_bind, StateT.run_bind, hnoting]
  cases (oracle s u).1 with
  | error e => rfl
  | ok b =>
    cases b with
    | true =>
      change (sift (noting oracle) ss).run.run ((oracle s u).2, asked ++ [s]) = _
      obtain ⟨x | found, v⟩ := (sift (noting oracle) ss).run.run ((oracle s u).2, asked ++ [s])
      · rfl
      · rfl
    | false =>
      change (do return s :: (← sift (noting oracle) ss) : ExceptT Fault _ _).run.run
        ((oracle s u).2, asked ++ [s]) = _
      rw [ExceptT.run_bind, StateT.run_bind]
      obtain ⟨x | found, v⟩ := (sift (noting oracle) ss).run.run ((oracle s u).2, asked ++ [s])
      · rfl
      · rfl

/-- With a fault among the answers, the first one is the result, and the last thing asked is the
script it is about. -/
theorem run_sift_noting_of_error (asked : List ScriptPath) {i : ℕ} {e : Fault}
    (hi : (replies oracle u ss)[i]? = some (.error e))
    (hbefore : ∀ j < i, ∃ b, (replies oracle u ss)[j]? = some (.ok b)) :
    ∃ v, (sift (noting oracle) ss).run.run (u, asked) =
      (.error e, v, asked ++ ss.take (i + 1)) := by
  induction ss generalizing u asked i with
  | nil => exact nomatch hi
  | cons s ss ih =>
    rw [run_sift_noting_cons]
    cases i with
    | zero =>
      rw [replies, List.getElem?_cons_zero, Option.some_inj] at hi
      rw [hi]
      exact ⟨_, rfl⟩
    | succ i =>
      obtain ⟨b, hb⟩ := hbefore 0 (Nat.succ_pos i)
      rw [replies, List.getElem?_cons_zero, Option.some_inj] at hb
      obtain ⟨v, hv⟩ := ih (asked ++ [s]) hi fun j hj => hbefore (j + 1) (by omega)
      rw [hb, hv]
      exact ⟨v, by simp [Except.map]⟩

/-- Without a fault among the answers, the scripts that are not ignored are the result, and every
script was asked about. -/
theorem run_sift_noting_of_ok (asked : List ScriptPath)
    (h : ∀ r ∈ replies oracle u ss, ∃ b, r = .ok b) :
    ∃ v, (sift (noting oracle) ss).run.run (u, asked) =
      (.ok (notIgnored ss (replies oracle u ss)), v, asked ++ ss) := by
  induction ss generalizing u asked with
  | nil => exact ⟨u, by rw [List.append_nil]; rfl⟩
  | cons s ss ih =>
    obtain ⟨⟨b, hb⟩, hrest⟩ := List.forall_mem_cons.mp h
    obtain ⟨v, hv⟩ := ih (asked ++ [s]) hrest
    rw [run_sift_noting_cons, replies, hb, hv]
    refine ⟨v, ?_⟩
    cases b with
    | true => simp [notIgnored, Except.map]
    | false => simp [notIgnored, Except.map]

end Oracle

section Machine

variable {σ : Type} {answer : (r : Request) → σ → r.Answer × σ}
  {isIgnored : ScriptPath → Action Bool}

/-- On a machine the search goes on with the answer about the first script, too. -/
theorem run_sift_cons (s : ScriptPath) (ss : List ScriptPath) (u : σ) :
    (sift isIgnored (s :: ss)).run.run answer u =
      match (isIgnored s).run.run answer u with
      | (.error e, v) => (.error e, v)
      | (.ok b, v) =>
        let (x, w) := (sift isIgnored ss).run.run answer v
        (x.map fun found => if b then found else s :: found, w) := by
  rw [sift, ExceptT.run_bind]
  change ((isIgnored s).run.bind _).run answer u = _
  rw [Program.run_bind]
  obtain ⟨e | b, v⟩ := (isIgnored s).run.run answer u
  · rfl
  · dsimp only
    cases b with
    | true =>
      change (sift isIgnored ss).run.run answer v = _
      obtain ⟨e | found, w⟩ := (sift isIgnored ss).run.run answer v
      · rfl
      · rfl
    | false =>
      change ((sift isIgnored ss).run.bind _).run answer v = _
      rw [Program.run_bind]
      obtain ⟨e | found, w⟩ := (sift isIgnored ss).run.run answer v
      · rfl
      · rfl

/-- A search on a machine is an inquiry: the oracle is the action that asks the machine about a
script, and what it remembers is the state of the machine. -/
theorem run_find_eq_inquire (f : Filter) (root : Option Entry) (u : σ) :
    ((find f isIgnored root).run.run answer u).1 =
      (inquire (fun s u => (isIgnored s).run.run answer u) u f root).1 := by
  have hsift (ss : List ScriptPath) (u : σ) (asked : List ScriptPath) : ∃ asked',
      (sift (noting fun s u => (isIgnored s).run.run answer u) ss).run.run (u, asked) =
        (((sift isIgnored ss).run.run answer u).1, ((sift isIgnored ss).run.run answer u).2,
          asked') := by
    induction ss generalizing u asked with
    | nil => exact ⟨asked, rfl⟩
    | cons s ss ih =>
      rw [run_sift_noting_cons, run_sift_cons]
      obtain ⟨e | b, v⟩ := (isIgnored s).run.run answer u
      · exact ⟨_, rfl⟩
      · obtain ⟨asked', h⟩ := ih v (asked ++ [s])
        exact ⟨asked', by simp only [h]⟩
  obtain ⟨asked', h⟩ := hsift ((root.map (candidates f)).getD []) u []
  rw [inquire, find, find, h]

end Machine

/-- **What the oracle is asked.**  For every tree, every filter and every oracle, which may
remember what it was asked: the candidates are the files of the tree with an extension that the
rules leave and that are below no directory named `.git` or pruned; the walk comes to them depth
first, in the order of names; and the oracle is asked about them in this order, about each once.
Its first fault is the last thing asked and the result; if there is none, the result is the
candidates that are not ignored, in the same order.  The order in which directories list their
entries does not matter. -/
theorem find_inquires (f : Filter) {es : List Entry} (hes : Entry.AreReal es) (name : List Char) :
    (∀ ns, ns ∈ f.candidateFiles es ↔ f.IsCandidate es ns) ∧
    (f.candidateFiles es).Pairwise Entry.WalkedBefore ∧
    (∀ {σ : Type} (oracle : ScriptPath → σ → Except Fault Bool × σ) (u : σ)
      (ss : List ScriptPath), ss = (f.candidateFiles es).map .ofNames →
      ((∀ r ∈ replies oracle u ss, ∃ b, r = .ok b) →
        inquire oracle u f (some (.directory name es)) =
          (.ok (notIgnored ss (replies oracle u ss)), ss)) ∧
      ∀ i e, (replies oracle u ss)[i]? = some (.error e) →
        (∀ j < i, ∃ b, (replies oracle u ss)[j]? = some (.ok b)) →
        inquire oracle u f (some (.directory name es)) = (.error e, ss.take (i + 1))) ∧
    ∀ es', Entry.Relists es es' → ∀ {m : Type → Type} [Monad m]
      (isIgnored : ScriptPath → ExceptT Fault m Bool),
      find f isIgnored (some (.directory name es')) =
        find f isIgnored (some (.directory name es)) := by
  refine ⟨fun ns => mem_candidateFiles_iff, pairwise_candidateFiles hes,
    fun oracle u ss hss => ⟨fun h => ?_, fun i e hi hbefore => ?_⟩,
    fun es' hes' m _ isIgnored => ?_⟩
  · obtain ⟨v, hv⟩ := run_sift_noting_of_ok [] h
    rw [inquire, find, Option.map_some, Option.getD_some, candidates_eq_map, ← hss, hv]
    rfl
  · obtain ⟨v, hv⟩ := run_sift_noting_of_error [] hi hbefore
    rw [inquire, find, Option.map_some, Option.getD_some, candidates_eq_map, ← hss, hv]
    rfl
  · rw [find, find, Option.map_some, Option.map_some, candidates_relisted hes hes']

/-- An oracle that ignores the first script it is asked about and fails at the third: the fourth
is not asked about.  A file with another extension and one in a pruned directory are none. -/
theorem find_inquires_third :
    inquire (fun _ u => (if u = 2 then .error (.discovery "/r" "no answer") else .ok (u == 0),
        u + 1)) 0 ⟨["sh"], ⟨[⟨["old".toList.map .char]⟩], []⟩⟩
      (some (.directory [] [.file "d.sh".toList, .file "c.sh".toList,
        .directory "old".toList [.file "x.sh".toList],
        .directory "b".toList [.file "y.sh".toList, .file "y.py".toList],
        .file "a.sh".toList])) =
      (.error (.discovery "/r" "no answer"), [⟨"a.sh"⟩, ⟨"b/y.sh"⟩, ⟨"c.sh"⟩]) := by
  have hes : Entry.AreReal [.file "d.sh".toList, .file "c.sh".toList,
      .directory "old".toList [.file "x.sh".toList],
      .directory "b".toList [.file "y.sh".toList, .file "y.py".toList], .file "a.sh".toList] := by
    have hd : IsName "d.sh".toList := by decide
    have hc : IsName "c.sh".toList := by decide
    have hx : IsName "old".toList ∧ IsName "x.sh".toList := by decide
    have hy : IsName "b".toList ∧ IsName "y.sh".toList ∧ IsName "y.py".toList := by decide
    have ha : IsName "a.sh".toList := by decide
    exact ⟨hd, by decide, hc, by decide, ⟨hx.1, hx.2, by decide, trivial⟩, by decide,
      ⟨hy.1, hy.2.1, by decide, hy.2.2, by decide, trivial⟩, by decide, ha, by decide, trivial⟩
  obtain ⟨-, -, hasked, -⟩ :=
    find_inquires ⟨["sh"], ⟨[⟨["old".toList.map .char]⟩], []⟩⟩ hes []
  refine (hasked _ 0 [⟨"a.sh"⟩, ⟨"b/y.sh"⟩, ⟨"c.sh"⟩, ⟨"d.sh"⟩] (by decide +kernel)).2 2
    (.discovery "/r" "no answer") rfl fun j hj => ?_
  obtain rfl | rfl : j = 0 ∨ j = 1 := by omega
  · exact ⟨true, rfl⟩
  · exact ⟨false, rfl⟩

end Discovery
end LintGate
