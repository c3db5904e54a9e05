import FlagSurvey.Number.Digits

/-! Signals by number, name and description, and what they do to a process that does not heed them. -/
namespace FlagSurvey.Shell

open Number

namespace Signal

def names : List String :=
  ["HUP", "INT", "QUIT", "ILL", "TRAP", "ABRT", "BUS", "FPE", "KILL", "USR1", "SEGV", "USR2", "PIPE",
    "ALRM", "TERM", "STKFLT", "CHLD", "CONT", "STOP", "TSTP", "TTIN", "TTOU", "URG", "XCPU", "XFSZ",
    "VTALRM", "PROF", "WINCH", "IO", "PWR", "SYS"]

def descriptions : List String :=
  ["Hangup", "Interrupt", "Quit", "Illegal instruction", "Trace/breakpoint trap", "Aborted",
    "Bus error", "Floating point exception", "Killed", "User defined signal 1", "Segmentation fault",
    "User defined signal 2", "Broken pipe", "Alarm clock", "Terminated", "Stack fault",
    "Child exited", "Continued", "Stopped (signal)", "Stopped", "Stopped (tty input)",
    "Stopped (tty output)", "Urgent I/O condition", "CPU time limit exceeded",
    "File size limit exceeded", "Virtual timer expired", "Profiling timer expired",
    "Window changed", "I/O possible", "Power failure", "Bad system call"]

/-- The signal with a number or a name; zero, which is none, asks whether a process is there. -/
def ofText? (text : List Char) : Option Nat :=
  match readNat? 10 text with
  | some n => if n ≤ 64 then some n else none
  | none =>
    let upper := String.ofList (text.map Char.toUpper)
    if upper == "EXIT" then some 0 else (names.idxOf? upper).map (· + 1)

def ofLongText? (text : List Char) : Option Nat :=
  let lead := "SIG".toList
  if lead.isPrefixOf (text.map Char.toUpper) then ofText? (text.drop lead.length) else ofText? text

def name (signal : Nat) : String :=
  if signal == 0 then "EXIT" else names.getD (signal - 1) (String.ofList (decimal signal))

def interrupt : Nat := 2

def kill : Nat := 9

def brokenPipe : Nat := 13

def terminate : Nat := 15

inductive Effect where
  | ends
  | stops
  | none
  deriving DecidableEq, Repr

def effect (signal : Nat) : Effect :=
  if [0, 17, 18, 23, 28].contains signal then .none
  else if [19, 20, 21, 22].contains signal then .stops
  else .ends

/-- What a shell says of a command that a signal ended; of an interrupt or a broken pipe it says
nothing. -/
def obituary? (signal : Nat) : Option String :=
  if signal == interrupt || signal == brokenPipe then none
  else descriptions[signal - 1]?

def isTrappable (signal : Nat) : Bool := signal != kill && signal != 19

end Signal
end FlagSurvey.Shell
