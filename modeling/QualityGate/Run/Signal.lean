/-!
Signals by their conventional names, and the exit code that stands for a death by signal.
-/

namespace QualityGate.Signal

/-- The names of the standard signals, from 1 upwards. -/
def names : List String :=
  ["SIGHUP", "SIGINT", "SIGQUIT", "SIGILL", "SIGTRAP", "SIGABRT", "SIGBUS", "SIGFPE", "SIGKILL",
   "SIGUSR1", "SIGSEGV", "SIGUSR2", "SIGPIPE", "SIGALRM", "SIGTERM", "SIGSTKFLT", "SIGCHLD",
   "SIGCONT", "SIGSTOP", "SIGTSTP", "SIGTTIN", "SIGTTOU", "SIGURG", "SIGXCPU", "SIGXFSZ",
   "SIGVTALRM", "SIGPROF", "SIGWINCH", "SIGIO", "SIGPWR", "SIGSYS"]

/-- **The name of a signal number**; real-time signals and numbers out of range have none. -/
def name? (signal : Int) : Option String :=
  if 1 ≤ signal then names[(signal - 1).toNat]? else none

/-- The exit code by which a death by `signal` is known. -/
def exitCode (signal : Int) : Int :=
  128 + signal

/-- A name belongs to the numbers 1 to 31 only. -/
theorem name?_isSome_iff (n : Int) : (name? n).isSome ↔ 1 ≤ n ∧ n ≤ 31 := by
  unfold name?
  split
  · rename_i h
    have hl : names.length = 31 := by decide
    rw [Option.isSome_iff_ne_none, ne_eq, List.getElem?_eq_none_iff]
    omega
  · rename_i h
    simp only [Option.isSome_none, Bool.false_eq_true, false_iff]
    omega

end QualityGate.Signal
