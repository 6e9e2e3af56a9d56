import QualityGate.Host.Lookup
import QualityGate.Proofs.Environment.Venv
import QualityGate.Proofs.Host.Path
/-!
## A directory in front of the search path

A program of one plain name is looked for along the search path alone. A directory that is put in front
of it comes first and hides nothing of what it does not hold itself (`find?_putFirst`).
-/

namespace QualityGate

open Host (Path.IsPlain)

namespace Host

open QualityGate.Host.Path (IsPlain)

/-! ### Components -/

namespace Path

/-- A plain name has one component, itself. -/
theorem components_plain {name : Bytes} (h : IsPlain name) : components name = [.name name] := by
  have habs : isAbsolute name = false := by simpa using isAbsolute_plain h []
  obtain ⟨hne, hdot, hdots, hslash⟩ := h
  simp [components, habs, startsAtCurrent, Text.splitBytes_of_not_mem hslash, Component.ofPiece?, hne,
    hdot, hdots]

/-- The first component of an absolute path is the root. -/
theorem components_absolute {path : Bytes} (h : isAbsolute path = true) :
    ∃ rest, components path = .root :: rest :=
  ⟨_, by rw [components, if_pos h]; rfl⟩

end Path

/-! ### Looking along the search path -/

namespace Viewpoint

variable (v : Viewpoint)

/-- Only `~` stands for the home directory. -/
theorem expandHome_absolute {entry : Bytes} (h : Path.isAbsolute entry = true) :
    v.expandHome entry = entry := by
  obtain ⟨rest, hrest⟩ := Path.components_absolute h
  rw [expandHome, hrest]

/-- A plain name is looked for along the search path. -/
theorem candidates_plain {program : Bytes} (h : IsPlain program) (dir : Bytes) (path : Option Bytes) :
    v.candidates program dir path =
      match path with
      | none => []
      | some p => (searchEntries p).map fun entry => Path.join (v.expandHome entry) program := by
  have hone : ¬1 < (Path.components program).length := by simp [Path.components_plain h]
  cases path with
  | none => simp only [candidates, if_neg hone]
  | some p => simp only [candidates, if_neg hone]

/-- **A directory in front of the search path** is looked in first, and what it does not hold is found
where it was found before. -/
theorem find?_putFirst {program : Bytes} (hprogram : IsPlain program) {bin : Bytes}
    (hbin : Path.isAbsolute bin = true) (hcolon : Environment.colon ∉ bin) (dir : Bytes)
    (path : Option Bytes) :
    v.find? program dir (Environment.putFirst bin path) =
      if v.files.isExecutable v.cwd (Path.join bin program) then some (Path.join bin program)
      else v.find? program dir path := by
  have hcandidates : v.candidates program dir (Environment.putFirst bin path) =
      Path.join bin program :: v.candidates program dir path := by
    simp only [candidates_plain v hprogram, Environment.putFirst_of_not_mem hcolon]
    cases path with
    | none =>
      simp [searchEntries, Text.splitBytes_of_not_mem hcolon, v.expandHome_absolute hbin]
    | some p =>
      simp [searchEntries, Text.splitBytes_append hcolon, v.expandHome_absolute hbin]
  rw [find?, hcandidates, List.find?_cons]
  cases v.files.isExecutable v.cwd (Path.join bin program) <;> rfl

/-- Without a search path no plain name is found. -/
theorem find?_none {program : Bytes} (h : IsPlain program) (dir : Bytes) :
    v.find? program dir none = none := by
  rw [find?, candidates_plain v h]
  rfl

end Viewpoint
end Host
end QualityGate
