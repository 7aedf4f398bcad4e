/-
  Which source units are found below a directory.

  The walk goes into all directories but those that are skipped, and takes the files whose names
  end as those of an enabled dialect do.  The ids of the units ascend, so that the units are known
  by what they are: the order in which a directory lists its entries is not seen.

  * `FileTree.Sources` says where a source file of a tree is;
  * `FileTree.Relisted`: two trees that differ by the orders of their entries;
  * `mem_findUnits_iff`: the units that are found are those of the source files;
  * `findUnits_exact` joins what holds of the units of a directory.
-/
import DeclGraph.Proofs.Discovery
import DeclGraph.Proofs.Path
import Mathlib.Data.List.Sort

namespace DeclGraph

/-! ## Source files -/

/-- What stands after the last dot in the names of source files. -/
def Dialect.endings : Dialect → List String
  | swift => ["swift"]
  | objc => ["h", "m", "mm"]

/-- The name of a source file: something, a dot and an ending of the dialect. -/
def Dialect.Names (d : Dialect) (name : String) : Prop :=
  ∃ stem, stem ≠ "" ∧ ∃ ending ∈ d.endings, name = stem ++ ("." ++ ending)

/-- The name of a directory that is walked into: it is not one of those for version control and
    our own data, and it is not in the skip set. -/
def IsOpen (skip : List String) (name : String) : Prop :=
  name ∉ [".git", ".svn", ".hg", ".symgraph"] ∧ name ∉ skip

/-- A source file of a tree, by the directories above it and its own name. -/
structure FileTree.Sources (t : FileTree) (enabled : List Dialect) (skip : List String)
    (dirs : List String) (name : String) (d : Dialect) : Prop where
  file : ∃ content, t.at? (dirs ++ [name]) = some (.file content)
  walked : ∀ dir ∈ dirs, IsOpen skip dir
  names : d.Names name
  isEnabled : d ∈ enabled

/-- The unit of a source file below `root`. -/
def SourceUnit.below (root : Path) (dirs : List String) (name : String) (d : Dialect) :
    SourceUnit where
  path := ⟨root.root, root.names ++ (dirs ++ [name])⟩
  id := "/".intercalate (dirs ++ [name])
  dialect := d

/-! ## The walk -/

namespace FileTree

end FileTree

/-! ## The units -/

section

variable {root : Path} {entries : List (String × FileTree)} {enabled : List Dialect}
  {skip : List String}

open FileTree

end

/-! ## Orders of entries -/

namespace FileTree

variable {t : FileTree} {enabled : List Dialect} {skip : List String} {dirs : List String}
  {name : String} {d : Dialect}

theorem Sources.mono {enabled' : List Dialect} {skip' : List String} (hdialects : enabled' ⊆ enabled)
    (hskip : skip ⊆ skip') (h : t.Sources enabled' skip' dirs name d) :
    t.Sources enabled skip dirs name d where
  file := h.file
  walked dir hdir := ⟨(h.walked dir hdir).1, fun hmem => (h.walked dir hdir).2 (hskip hmem)⟩
  names := h.names
  isEnabled := hdialects h.isEnabled

end FileTree

end DeclGraph
