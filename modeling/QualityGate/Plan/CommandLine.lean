/-!
Command lines: a program and its arguments, built by appending.
-/

namespace QualityGate

/-- **A program and its arguments in order.** -/
structure CommandLine where
  /-- Name or path of the program. -/
  program : String
  args : List String := []
  deriving DecidableEq, Repr, Inhabited

namespace CommandLine

/-- One more argument at the end. -/
def push (c : CommandLine) (arg : String) : CommandLine :=
  { c with args := c.args ++ [arg] }

/-- Several more arguments at the end. -/
def append (c : CommandLine) (args : List String) : CommandLine :=
  { c with args := c.args ++ args }

/-- Whether an argument occurs. -/
def has (c : CommandLine) (arg : String) : Bool :=
  c.args.contains arg

/-- **A command line as text**: program and arguments with single spaces between, nothing quoted. -/
def render (c : CommandLine) : String :=
  String.intercalate " " (c.program :: c.args)

end CommandLine
end QualityGate
