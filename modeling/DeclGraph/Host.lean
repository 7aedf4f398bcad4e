/-
  DeclGraph — the host.

  A program runs on a machine that knows the home directories of its users and
  bounds what can be done: values that lie too deep in one another are neither
  read nor written.  How deep that is depends on the machine, and on what the
  program is doing already.

  * `Host` says what the machine knows and allows; it allows all that the
    program itself builds.
-/
namespace DeclGraph

/-- Bounds that are ample: they are those of a machine of which nothing else is said. -/
theorem Host.ample_bounds : 16 ≤ 900 ∧ 16 ≤ 900 ∧ 16 ≤ 400 := by decide

/-- What the machine knows and allows on which the program runs. -/
structure Host where
  /-- The text of the home directory of a user; the empty name is that of the
      user who runs the program. -/
  home : String → Option String := fun _ => none
  /-- How many lists and objects may lie in one another in a JSON text that is
      read, -/
  readDepth : Nat := 900
  /-- in a value that is written as a JSON text, -/
  writeDepth : Nat := 900
  /-- and in a configuration file. -/
  configDepth : Nat := 400
  ample : 16 ≤ readDepth ∧ 16 ≤ writeDepth ∧ 16 ≤ configDepth := by exact DeclGraph.Host.ample_bounds

instance : Inhabited Host := ⟨{}⟩

end DeclGraph
