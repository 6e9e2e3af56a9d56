import QualityGate.Environment.Venv
/-!
## The environment inside a virtual environment

A directory that is put in front of a search path leaves the rest of it untouched, byte for byte
(`putFirst_of_not_mem`), and one that cannot be an entry leaves all of it (`putFirst_of_mem`).

* `get?_inVenv`: the value of any variable inside a virtual environment.
* `inVenv_accounted`: three variables are set by the layout, and the others are those of before.
-/

namespace QualityGate.Environment

/-! ### Search paths -/

/-- Only entries without a colon make a search path. -/
theorem searchPath?_eq_some_iff {entries : List Bytes} {path : Bytes} :
    searchPath? entries = some path ↔
      (∀ entry ∈ entries, colon ∉ entry) ∧ Text.joinBytes colon entries = path := by
  have hclear : entries.any (·.contains colon) = false ↔ ∀ entry ∈ entries, colon ∉ entry := by
    simp [List.any_eq_false]
  rw [searchPath?, ← hclear]
  cases entries.any (·.contains colon) <;> simp

/-- **A directory that may be an entry is put in front**, and the rest of the search path is as it was. -/
theorem putFirst_of_not_mem {dir : Bytes} (h : colon ∉ dir) (path : Option Bytes) :
    putFirst dir path = some (path.elim dir fun p => dir ++ colon :: p) := by
  rw [putFirst, searchPath?_eq_some_iff]
  cases path with
  | none => exact ⟨List.forall_mem_singleton.mpr h, rfl⟩
  | some p =>
    refine ⟨List.forall_mem_cons.mpr ⟨h, fun _ => Text.not_mem_of_mem_splitBytes⟩, ?_⟩
    -- cutting leaves at least one piece, so a colon comes after the directory
    obtain ⟨first, others, hpieces⟩ := List.exists_cons_of_ne_nil (Text.splitBytes_ne_nil colon p)
    have hjoined : Text.joinBytes colon (first :: others) = p :=
      hpieces ▸ Text.joinBytes_splitBytes colon p
    show Text.joinBytes colon (dir :: Text.splitBytes colon p) = dir ++ colon :: p
    rw [hpieces, Text.joinBytes, hjoined]

/-- A directory that holds a colon cannot be put in front of anything. -/
theorem putFirst_of_mem {dir : Bytes} (h : colon ∈ dir) (path : Option Bytes) :
    putFirst dir path = none := by
  rw [Option.eq_none_iff_forall_not_mem]
  intro p hp
  exact (searchPath?_eq_some_iff.mp hp).1 dir List.mem_cons_self h

/-! ### Variables -/

/-- **The value of any variable inside a virtual environment.** -/
theorem get?_inVenv (base : Environment) (venv key : Bytes) :
    (base.inVenv venv).get? key =
      if key = homeKey then none
      else if key = venvKey then some venv
      else if key = pathKey then
        (putFirst (Host.Path.join venv (Text.bytes "bin")) (base.get? pathKey)).or (base.get? pathKey)
      else base.get? key := by
  rw [inVenv, get?_remove, get?_set]
  split
  · rfl
  split
  · rfl
  cases putFirst (Host.Path.join venv (Text.bytes "bin")) (base.get? pathKey) with
  -- the search path is left as it was
  | none =>
    rw [Option.none_or]
    show base.get? key = _
    by_cases hkey : key = pathKey
    · rw [if_pos hkey, hkey]
    · rw [if_neg hkey]
  | some p =>
    rw [Option.some_or]
    exact get?_set base pathKey p key

/-- **What the standard layout makes of an environment.** Its `bin` directory comes first on the search
path, before the bytes that were there, unless a colon in its name keeps it out and leaves the search
path as it is. The virtual environment is named in any case, the variable that it must not see is gone,
and every other variable has the value that it had. -/
theorem inVenv_accounted (base : Environment) (venv : Bytes) :
    let bin := Host.Path.join venv (Text.bytes "bin")
    let inside := base.inVenv venv
    (colon ∉ bin → base.get? pathKey = none → inside.get? pathKey = some bin) ∧
    (colon ∉ bin → ∀ path, base.get? pathKey = some path →
      inside.get? pathKey = some (bin ++ colon :: path)) ∧
    (colon ∈ bin → inside.get? pathKey = base.get? pathKey) ∧
    inside.get? venvKey = some venv ∧
    inside.get? homeKey = none ∧
    ∀ key, key ≠ pathKey → key ≠ venvKey → key ≠ homeKey → inside.get? key = base.get? key := by
  intro bin inside
  -- the three variables are set one after the other, and are three
  have hkeys : pathKey ≠ homeKey ∧ pathKey ≠ venvKey ∧ venvKey ≠ homeKey := by decide
  have hpath : inside.get? pathKey = (putFirst bin (base.get? pathKey)).or (base.get? pathKey) := by
    rw [get?_inVenv, if_neg hkeys.1, if_neg hkeys.2.1, if_pos rfl]
  refine ⟨fun hclear hunset => ?_, fun hclear path hset => ?_, fun hcolon => ?_, ?_, ?_, ?_⟩
  · rw [hpath, putFirst_of_not_mem hclear, hunset]
    rfl
  · rw [hpath, putFirst_of_not_mem hclear, hset]
    rfl
  · rw [hpath, putFirst_of_mem hcolon, Option.none_or]
  · rw [get?_inVenv, if_neg hkeys.2.2, if_pos rfl]
  · rw [get?_inVenv, if_pos rfl]
  · intro key hnotPath hnotVenv hnotHome
    rw [get?_inVenv, if_neg hnotHome, if_neg hnotVenv, if_neg hnotPath]

/-- An environment whose search path has empty entries and one that stands twice. -/
def gappyBase : Environment :=
  (empty.set pathKey (Text.bytes ":/b::/b:")).set homeKey (Text.bytes "/py")

/-- Empty and repeated entries stay; a colon in the name of the layout's directory keeps it out. -/
theorem inVenv_accounted_gappy :
    (gappyBase.inVenv (Text.bytes "/v")).get? pathKey = some (Text.bytes "/v/bin::/b::/b:") ∧
      (gappyBase.inVenv (Text.bytes "/v:w")).get? pathKey = some (Text.bytes ":/b::/b:") ∧
      (gappyBase.inVenv (Text.bytes "/v:w")).get? venvKey = some (Text.bytes "/v:w") := by
  have hpath : gappyBase.get? pathKey = some (Text.bytes ":/b::/b:") := by decide
  obtain ⟨-, hput, -⟩ := inVenv_accounted gappyBase (Text.bytes "/v")
  obtain ⟨-, -, hkept, hvenv, -⟩ := inVenv_accounted gappyBase (Text.bytes "/v:w")
  refine ⟨?_, ?_, hvenv⟩
  · rw [hput (by decide) _ hpath]
    decide
  · rw [hkept (by decide), hpath]

end QualityGate.Environment
