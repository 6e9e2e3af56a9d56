import QualityGate.Host.Errno
import QualityGate.Text.Utf8
/-!
What can keep a run from starting or from going on, told as a sentence and, in a report, followed by
its causes. A tool that exits with a failure is not among these: it is an ordinary outcome.

A report lists every cause once and in order (`Failure.report`). A fault of the operating system
that wraps a described cause shows the cause's own text, so the chain goes on with what lies under
that cause.
-/

namespace QualityGate

/-! ### Causes -/

/-- **A described cause**, with what lies under it if anything does. -/
inductive Cause where
  | base (text : String)
  | above (text : String) (under : Cause)
  deriving DecidableEq, Repr

namespace Cause

/-- A cause's own text. -/
def text : Cause → String
  | base t => t
  | above t _ => t

/-- What lies directly under a cause. -/
def source? : Cause → Option Cause
  | base _ => none
  | above _ c => some c

/-- A cause's text and those of all that lies under it. -/
def texts : Cause → List String
  | base t => [t]
  | above t c => t :: c.texts

/-- The chain with the given texts, the first on top. -/
def ofTexts (first : String) : List String → Cause
  | [] => base first
  | t :: ts => above first (ofTexts t ts)

theorem texts_ofTexts (first : String) (ts : List String) :
    (ofTexts first ts).texts = first :: ts := by
  induction ts generalizing first with
  | nil => rfl
  | cons t ts ih => simp [ofTexts, texts, ih]

end Cause

/-- **A fault of file or process input and output**: an error number of the system, or a wrapper
around a described cause. -/
inductive IoFault where
  | system (errno : Host.Errno)
  | wrapped (cause : Cause)
  deriving DecidableEq, Repr

namespace IoFault

/-- What the fault says; a wrapper says what its cause says. -/
def text : IoFault → String
  | system e => e.message
  | wrapped c => c.text

/-- What lies under the fault; a wrapper points past the cause whose text it shows. -/
def source? : IoFault → Option Cause
  | system _ => none
  | wrapped c => c.source?

/-- The fault's text and those of all that lies under it. -/
def texts (f : IoFault) : List String :=
  f.text :: (f.source?.map Cause.texts).getD []

/-- A fault described by one sentence. -/
def described (text : String) : IoFault :=
  wrapped (.base text)

end IoFault

/-! ### Failures -/

/-- **What keeps a run from going on.** -/
inductive Failure where
  /-- No settings file at a path that was asked for. -/
  | settingsNotFound (path : Bytes)
  /-- The settings file does not parse. -/
  | settingsUnreadable (message : String) (cause : Cause)
  /-- A setting has a value that makes no sense. -/
  | settingInvalid (field message : String)
  /-- A tool is not installed. -/
  | toolMissing (program : String)
  /-- Input or output failed. -/
  | io (message : String) (fault : IoFault)
  /-- Something that should not happen. -/
  | internal (message : String)
  deriving DecidableEq, Repr

namespace Failure

/-- **A failure in one sentence.** -/
def message : Failure → String
  | settingsNotFound path => "Configuration file not found: " ++ Text.lossy path
  | settingsUnreadable m _ => "Failed to parse configuration: " ++ m
  | settingInvalid f m => "Invalid configuration: " ++ f ++ " - " ++ m
  | toolMissing p => "The program '" ++ p ++ "' is missing! Please install it"
  | io m _ => "I/O error: " ++ m
  | internal m => "Internal error: " ++ m

/-- The failure of a session that cannot name its working directory. -/
def directoryGone (e : Host.Errno) : Failure :=
  io "get current dir" (.system e)

/-- The texts of a failure's causes, nearest first. -/
def causes : Failure → List String
  | settingsUnreadable _ c => c.texts
  | io _ f => f.texts
  | _ => []

/-- The line of a report that names one cause. -/
def causeLine (cause : String) : String :=
  "\n  Caused by: " ++ cause

/-- **A failure with its causes**, one to a line. -/
def report (f : Failure) : String :=
  f.message ++ String.join (f.causes.map causeLine)

/-- The exit code for a command that is not found. -/
def codeNotFound : Int := 127

/-- The exit code for a problem with the settings. -/
def codeSettings : Int := 78

/-- **The exit code of a failure.** -/
def exitCode : Failure → Int
  | toolMissing _ => codeNotFound
  | settingsNotFound _ => codeSettings
  | settingsUnreadable _ _ => codeSettings
  | settingInvalid _ _ => codeSettings
  | io _ _ => 1
  | internal _ => 1

end Failure

/-- **Why a computation stops short**: a failure that is reported, or a time limit whose sum runs out
of range, which nothing catches. -/
inductive Halt where
  | failed (failure : Failure)
  | overflow
  deriving DecidableEq, Repr

end QualityGate
