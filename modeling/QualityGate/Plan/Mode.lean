/-!
The two modes of a run. In fix mode the formatter rewrites files in place; in check mode it only
reports what it would change. Check mode has to be asked for by name: only an exact `--check` as the
first argument selects it.
-/

namespace QualityGate

/-- **Whether a run may modify files.** -/
inductive Mode where
  /-- The formatter rewrites files. -/
  | fix
  /-- Nothing is rewritten. -/
  | check
  deriving DecidableEq, Repr, Inhabited

namespace Mode

/-- The argument that selects check mode, for this program and for the formatter. -/
def checkFlag : String := "--check"

/-- The mode that the first argument of a command line selects. -/
def ofFirstArg : Option String → Mode
  | some arg => if arg = checkFlag then check else fix
  | none => fix

/-- The mode that a flag selects. -/
def ofFlag : Bool → Mode
  | true => check
  | false => fix

/-- The name of a mode. -/
def name : Mode → String
  | fix => "fix"
  | check => "check"

/-- Whether the mode forbids modifying files. -/
def isCheck : Mode → Bool
  | fix => false
  | check => true

/-- **Only the exact flag selects check mode.** -/
theorem ofFirstArg_eq_check_iff (a : Option String) : ofFirstArg a = check ↔ a = some checkFlag := by
  cases a with
  | none => simp [ofFirstArg]
  | some s => by_cases h : s = checkFlag <;> simp [ofFirstArg, h]

end Mode
end QualityGate
