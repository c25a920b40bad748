import LintGate.Proofs.CommandLine.Choices

/-!
# Whole command lines

A command line is written level by level: the options in front of each command, the name of the
command, and behind the last one its options and a path behind two dashes.

## Main definitions

* `Task.path`, `Task.level` — the repository and the command of a task.
* `CommandLine.Line` — the words of a command line with the options of each level.

## Main results

* `CommandLine.read_line_iff`, `CommandLine.ofWords_line_iff` — which command lines can be read,
  and what they come to.
-/

namespace LintGate

/-- The repository that a task is about. -/
def Task.path : Task → String
  | .verify path _ _ => path
  | .toolStatus path _ => path

/-- The level of the command for a task. -/
def Task.level : Task → CommandLine.Level
  | .verify _ _ _ => .verify
  | .toolStatus _ _ => .status

namespace CommandLine

variable {l leaf : Level} {cs ds : List Choice} {css : List (List Choice)} {path : String}
  {ws words rest : List String} {r : Level × Layers}

/-! ### The words of a command line -/

/-- The words of a command line, from a level on: the options of each level, the names of the
commands between them, and at the end a path behind two dashes. -/
inductive Line (path : String) (leaf : Level) : Level → List (List Choice) → List String → Prop
  | path {cs : List Choice} {ws : List String} (h : Written leaf cs ws) :
      Line path leaf leaf [cs] (ws ++ ["--", path])
  | command {l inner : Level} {name : String} {cs : List Choice} {css : List (List Choice)}
      {ws rest : List String} (h : Written l cs ws) (hname : Leads l name inner)
      (hrest : Line path leaf inner css rest) : Line path leaf l (cs :: css) (ws ++ name :: rest)

theorem Line.ne_nil (h : Line path leaf l css words) : css ≠ [] := by
  cases h with
  | path => exact List.cons_ne_nil _ _
  | command => exact List.cons_ne_nil _ _

/-- Options at the start of a level. -/
theorem read_written_start (hrest : TakesFirst l rest) (h : Written l cs ws) :
    read l {} .nothing false (ws ++ rest) = .ok r ↔
      Acceptable cs ∧ read l (summary cs) .nothing false rest = .ok r := by
  rw [read_written hrest h]
  constructor
  · rintro ⟨g, hg, hread⟩
    obtain ⟨hcs, rfl⟩ := takeAll_eq_ok_iff.mp hg
    exact ⟨hcs, hread⟩
  · rintro ⟨hcs, hread⟩
    exact ⟨_, takeAll_eq_ok_iff.mpr ⟨hcs, rfl⟩, hread⟩

/-- **What a command line is read as**, and when it is read at all. -/
theorem read_line_iff (hleaf : leaf.hasCommands = false) (h : Line path leaf l css words) :
    read l {} .nothing false words = .ok r ↔
      path ≠ "" ∧ (∀ cs ∈ css, Acceptable cs) ∧ r = (leaf, layersOf path css) := by
  -- The words of a level are read as if nothing stood in front of them.
  induction h generalizing r with
  | @path cs ws h =>
    rw [read_written_start (takesFirst_path hleaf) h, read_path hleaf isReady_nothing]
    constructor
    · rintro ⟨hcs, _, ⟨⟩, -, hpath, rfl⟩
      exact ⟨hpath, by simpa using hcs, rfl⟩
    · rintro ⟨hpath, hcs, rfl⟩
      exact ⟨by simpa using hcs, _, rfl, rfl, hpath, rfl⟩
  | @command l inner name cs css ws rest h hname hrest ih =>
    have hlayers : layersOf path (cs :: css) = summary cs :: layersOf path css := by
      obtain ⟨ds, dss, rfl⟩ := List.exists_cons_of_ne_nil hrest.ne_nil
      rfl
    rw [read_written_start (takesFirst_command hname) h, read_command hname isReady_nothing]
    constructor
    · rintro ⟨hcs, _, _, _, ⟨⟩, hread, rfl⟩
      obtain ⟨hpath, hcss, ⟨⟩⟩ := ih.mp hread
      exact ⟨hpath, List.forall_mem_cons.mpr ⟨hcs, hcss⟩, by rw [hlayers]⟩
    · rintro ⟨hpath, hcss, rfl⟩
      obtain ⟨hcs, hcss⟩ := List.forall_mem_cons.mp hcss
      exact ⟨hcs, _, _, _, rfl, ih.mpr ⟨hpath, hcss, rfl⟩, by rw [hlayers]⟩

/-- What a command line asks for, and when it asks for anything. -/
theorem ofWords_line_iff (hleaf : leaf.hasCommands = false) (h : Line path leaf .top css words)
    {i : Invocation} : Invocation.ofWords words = .ok i ↔
      path ≠ "" ∧ (∀ cs ∈ css, Acceptable cs) ∧
        i = Invocation.ofLayers leaf (layersOf path css) := by
  rw [Invocation.ofWords, map_eq_ok_iff]
  constructor
  · rintro ⟨_, hread, rfl⟩
    obtain ⟨hpath, hcss, rfl⟩ := (read_line_iff hleaf h).mp hread
    exact ⟨hpath, hcss, rfl⟩
  · rintro ⟨hpath, hcss, rfl⟩
    exact ⟨_, (read_line_iff hleaf h).mpr ⟨hpath, hcss, rfl⟩, rfl⟩

end CommandLine
end LintGate
