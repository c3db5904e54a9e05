import FlagSurvey.Shell.State

/-! Child processes. A child is carried out to its end from the time of its start, and the clock then goes
back to that time: what it wrote keeps its own times, and whoever waits for it moves the clock on to its
end. A signal that ends it earlier takes back what it wrote later. -/
namespace FlagSurvey.Shell

open Number

def Flow.ending? (status : Nat) : Flow → Option Ending
  | .exit code => some (.exit code)
  | .return code => some (.exit code)
  | .gone code => some (.exit code)
  | .leave _ => some (.exit status)
  | .next _ => some (.exit status)
  | .slain signal => some (.signal signal)
  | .late => none

/-- The state in which a child begins: traps go, but for the signals that are ignored. -/
def Session.child (sh : Session) (pid : Nat) : Session :=
  { sh with
    pid
    ancestors := sh.pid :: sh.ancestors
    jobs := []
    traps := sh.traps.filter fun trap => trap.1 != 0 && trap.2.isEmpty
    caught := []
    loops := 0 }

def forkTime : Nat := millisecond / 10

/-- What a child takes to begin, so that its parent is first to go on. -/
def wakeTime : Nat := millisecond / 4

def detour (body : Action Unit) : Action Process := do
  let pid ← freshNumber
  spend forkTime
  let before ← get
  modifyShell fun sh => sh.child pid
  let ending ← tryCatch (do
      spend wakeTime
      body
      return some (Ending.exit (← get).shell.status)) fun flow => do
    return flow.ending? (← get).shell.status
  let after ← get
  let finish := if ending.isSome then after.host.clock else after.host.horizon + 1
  let process : Process :=
    ⟨pid, before.shell.pid, finish, ending.getD (.signal Signal.kill), after.shell.streams,
      after.shell.detached, false⟩
  set { after with
    shell := before.shell
    host := { after.host with
      clock := before.host.clock
      directory := { after.host.directory with here := before.host.directory.here }
      processes := process :: after.host.processes } }
  return process

def forget (pid : Nat) : Action Unit :=
  modifyHost fun h => { h with processes := h.processes.filter fun p => p.pid != pid }

def reap : Action Unit := do
  let pid := (← get).shell.pid
  modifyHost fun h => { h with processes := h.processes.map fun p =>
      if p.parent == pid && p.finish ≤ h.clock then { p with reaped := true } else p }

def join (process : Process) : Action Ending := do
  waitUntil process.finish
  reap
  forget process.pid
  return process.ending

def announce (ending : Ending) : Action Unit := do
  match ending with
  | .signal signal =>
    match Signal.obituary? signal with
    | some text => emitText 2 (text ++ "\n")
    | none => pure ()
  | .exit _ => pure ()

def runChild (body : Action Unit) : Action Unit := do
  let ending ← join (← detour body)
  announce ending
  setStatus ending.status

def Host.silence (h : Host) (pid time : Nat) : Host :=
  { h with streams := h.streams.map fun (number, chunks) =>
      (number, chunks.filter fun chunk => chunk.owner != pid || chunk.time ≤ time) }

def Host.cut (h : Host) (pid time finish : Nat) (ending : Ending) : Host :=
  let h := h.silence pid time
  { h with processes := h.processes.map fun p =>
      if p.pid == pid && time < p.finish then { p with finish, ending } else p }

def send (signal pid : Nat) : Action Bool := do
  let s ← get
  let now := s.host.clock
  if pid == s.shell.pid then
    receive signal
    return true
  else if s.shell.ancestors.contains pid then
    modifyHost fun h => { h with pending := ⟨pid, now, signal⟩ :: h.pending }
    return true
  else if s.host.processes.any (·.pid == pid) then
    match Signal.effect signal with
    | .none => pure ()
    | .stops => modifyHost fun h => h.cut pid now (h.horizon + 1) (.signal Signal.kill)
    | .ends => modifyHost fun h => h.cut pid now now (.signal signal)
    return true
  else return false

def sendAll (signal : Nat) : Action Unit := do
  let s ← get
  for p in s.host.processes do
    if !p.detached then discard (send signal p.pid)
  for pid in s.shell.ancestors do discard (send signal pid)
  discard (send signal s.shell.pid)

def target? (word : Octets) : Option Nat :=
  match word with
  | '-' :: rest => (readNat? 10 rest).map fun _ => 0
  | _ => readNat? 10 word

def job? (sh : Session) (word : Octets) : Option Nat :=
  match word with
  | '%' :: rest =>
    match rest with
    | [] | ['%'] | ['+'] => sh.jobs.getLast?
    | _ => (readNat? 10 rest).bind fun n => if n == 0 then none else sh.jobs[n - 1]?
  | _ => none

/-- Waits for a child of this process, telling of its end if that is news; none if there is no such
child. -/
def await (pid : Nat) : Action (Option Nat) := do
  let s ← get
  match s.host.processes.find? fun p => p.pid == pid && p.parent == s.shell.pid with
  | none => return none
  | some p =>
    waitUntil p.finish
    if !p.reaped then announce p.ending
    reap
    return some p.ending.status

end FlagSurvey.Shell
