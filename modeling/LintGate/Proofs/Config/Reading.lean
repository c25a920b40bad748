import LintGate.Proofs.Program.Trace
import LintGate.Verify

/-!
# What a configuration file is read as

A configuration is read from one file, and what comes of it is told by the content of this file.

## Main definitions

* `Config.ReadAs` — what a file with some content is read as.

## Main results

* `Config.run_readConfig` — a file is read as what its content tells.
-/

namespace LintGate
namespace Config

/-- What a file with some content is read as. -/
inductive ReadAs (path : String) : Except OsFault Bytes → Except Fault Config → Prop
  /-- Its text spells a configuration. -/
  | spelled {bytes : Bytes} {cs : List Char} {c : Config} (htext : Text.decode? bytes = some cs)
      (h : ofText (String.ofList cs) = .ok c) : ReadAs path (.ok bytes) (.ok c)
  /-- Its text spells none. -/
  | malformed {bytes : Bytes} {cs : List Char} {reason : String}
      (htext : Text.decode? bytes = some cs) (h : ofText (String.ofList cs) = .error reason) :
      ReadAs path (.ok bytes) (.error (.config (.malformed path reason)))
  /-- It holds no text. -/
  | noText {bytes : Bytes} (htext : Text.decode? bytes = none) :
      ReadAs path (.ok bytes) (.error (.config (.unreadable path .notText)))
  /-- The system does not read it. -/
  | refused (e : OsFault) : ReadAs path (.error e) (.error (.config (.unreadable path e)))

theorem ReadAs.unique {path : String} {content : Except OsFault Bytes} {x y : Except Fault Config}
    (hx : ReadAs path content x) (hy : ReadAs path content y) : x = y := by
  cases hx <;> cases hy <;> simp_all

/-- **A file is read as what its content tells,** and nothing else is asked for. -/
theorem run_readConfig {σ : Type} (answer : (r : Request) → σ → r.Answer × σ) (path : String)
    (s : σ) :
    ∃ x, (readConfig path).run.run answer s = (x, (answer (.readFile path) s).2) ∧
      ReadAs path (answer (.readFile path) s).1 x := by
  rw [readConfig, Action.run_bind_eq, Action.trial, ExceptT.run_mk, Program.bind_assoc, readText,
    Program.send, Program.ask_bind, Program.ask_bind, Program.run_ask]
  cases (answer (.readFile path) s).1 with
  | error e => exact ⟨_, rfl, .refused e⟩
  | ok bytes =>
    rw [Program.done_bind]
    dsimp only
    cases htext : Text.decode? bytes with
    | none => exact ⟨_, rfl, .noText htext⟩
    | some cs =>
      have hread : (Except.ok (String.ofList cs)).mapError
          (fun e => Fault.config (.unreadable path e)) = .ok (String.ofList cs) := rfl
      dsimp only [Program.done_bind]
      rw [hread]
      dsimp only
      cases h : ofText (String.ofList cs) with
      | error reason => exact ⟨_, rfl, .malformed htext h⟩
      | ok c => exact ⟨_, rfl, .spelled htext h⟩

end Config
end LintGate
