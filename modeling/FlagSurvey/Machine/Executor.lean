import FlagSurvey.Machine.Basic
import FlagSurvey.Shell.Evaluation
import FlagSurvey.Trial.Plan

/-! Trials on the machine. A command runs as the head of a group of processes; at its deadline the group is
killed. What outlives the command may write for a while longer, and is then killed with the group; what has
left the group and still holds an output open by then costs the trial that output. -/
namespace FlagSurvey.Machine

open Shell

/-- How long after the end of a command its outputs are waited for before the group is killed, and once
more before they are given up. -/
def grace : Nat := 500 * millisecond

def outputStream : Nat := 0

def errorStream : Nat := 1

def firstPid : Nat := 4000

def environment (directory : Directory) : List (Octets × Variable) :=
  [("HOME", "/root"), ("PATH", ":".intercalate searchPath),
    ("PWD", "/" ++ "/".intercalate directory.here)].map fun entry =>
      (octetsOf entry.1, ⟨some (octetsOf entry.2), true, false⟩)

/-- The limits of every trial: no memory is written out at its end, and those that a system sets. -/
def standardLimits : List (Char × Nat) := [('c', 0), ('s', 8192), ('l', 8192), ('n', 1048576)]

def initialSession (memory : Option Nat) (directory : Directory) : Session where
  name := []
  line := 1
  parameters := []
  bindings := environment directory
  functions := []
  status := 0
  handles := [(0, .sink), (1, .stream outputStream), (2, .stream errorStream)]
  pid := firstPid
  main := firstPid
  ancestors := []
  jobs := []
  traps := []
  caught := []
  depth := 0
  loops := 0
  hidden := []
  exitOnError := false
  unsetIsError := false
  noGlob := false
  trace := false
  readOnly := false
  tested := false
  detached := false
  limits := memory.toList.map (fun bytes => ('v', bytes / 1024)) ++ standardLimits
  command := none
  outputStatus := none

def initialHost (horizon : Nat) (directory : Directory) : Host where
  directory
  clock := 0
  horizon
  streams := []
  sources := []
  processes := []
  pending := []
  fresh := firstPid + 1

structure Course where
  ending : Option Ending
  host : Host

def course (memory : Option Nat) (horizon : Nat) (launch : Directory.Launch) (command : Command)
    (directory : Directory) : Course :=
  let steps := horizon / stepTime + 1000000
  let state : State := ⟨initialHost horizon directory, initialSession memory directory⟩
  let action := program steps launch (octetsOf command.program) (command.args.map octetsOf)
  match Action.runOn action state with
  | (.ok _, last) => ⟨some (.exit last.shell.status), last.host⟩
  | (.error flow, last) => ⟨flow.ending? last.shell.status, last.host⟩

namespace Course

/-- The time of the last end among the processes that keep a stream open, where the group is killed at a
time and only what has left it goes on. -/
def closing (c : Course) (killed stream : Nat) : Nat :=
  (c.host.processes.filter fun p => p.holds.contains stream).foldl
    (fun time p => max time (if p.detached then p.finish else min p.finish killed)) 0

def written (c : Course) (killed limit stream : Nat) : String :=
  let isDetached (pid : Nat) : Bool := c.host.processes.any fun p => p.pid == pid && p.detached
  let kept := (c.host.written stream).filter fun chunk =>
    chunk.time ≤ killed || (chunk.time ≤ limit && isDetached chunk.owner)
  Text.decodeLenient (toBytes (kept.flatMap (·.octets)))

def outcome (c : Course) (deadline : Nat) : Outcome :=
  let ended := c.ending.filter fun _ => c.host.clock ≤ deadline
  let finish := if ended.isSome then c.host.clock else deadline
  let killed := if ended.isSome then finish + grace else finish
  let limit := finish + 2 * grace
  let reads := c.closing killed outputStream ≤ limit
  let stdout := if reads then c.written killed limit outputStream else ""
  let stderr := if reads && c.closing killed errorStream ≤ limit
    then c.written killed limit errorStream else ""
  match ended with
  | some (.exit code) => ⟨some (code % 256 : Nat), none, stdout, stderr, .ofNanos finish, false⟩
  | some (.signal number) => ⟨none, some number, stdout, stderr, .ofNanos finish, false⟩
  | none => ⟨none, some Signal.kill, stdout, stderr, .max, true⟩

end Course

def nulCause : String := "nul byte found in provided data"

def execute (memory : Option Nat) (request : Request) (directory : Directory) :
    Except Failure Outcome × Directory :=
  let command := request.command
  if (command.program :: command.args).any fun word => word.toList.contains '\x00' then
    (.error (.launch command.program nulCause), directory)
  else
    match directory.launchNamed searchPath command.program with
    | .error fault => (.error (.launch command.program fault.message), directory)
    | .ok launch =>
      let deadline := request.deadline.nanos
      let c := course memory (deadline + 2 * grace) launch command directory
      (.ok (c.outcome deadline), { c.host.directory with here := directory.here })

def executor (memory : Option Nat) : Executor Directory := ⟨execute memory⟩

end FlagSurvey.Machine
