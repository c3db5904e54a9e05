import FlagSurvey.Machine.Directory
import FlagSurvey.Shell.Signal
import FlagSurvey.Shell.Syntax

/-! What a shell works on: the host, which all processes share, and the shell's own variables, functions
and descriptors. Time is a clock in nanoseconds that every step moves on; what is written carries its time,
so that a process in the background can be carried out at once and its output put in its place later. What
is written to a stream stands with the latest first. -/
namespace FlagSurvey.Shell

open Number

abbrev Octets := List Char

inductive Ending where
  | exit (code : Nat)
  | signal (number : Nat)
  deriving DecidableEq, Repr

def Ending.status : Ending → Nat
  | .exit code => code % 256
  | .signal number => 128 + number

structure Chunk where
  time : Nat
  owner : Nat
  octets : Octets

structure Source where
  pieces : List (Nat × Octets)
  closing : Nat

structure Process where
  pid : Nat
  parent : Nat
  /-- The time of its end, past the horizon if it has none. -/
  finish : Nat
  ending : Ending
  holds : List Nat
  detached : Bool
  reaped : Bool

inductive Handle where
  | stream (number : Nat)
  | source (number : Nat)
  | file (names : List String)
  | sink
  deriving DecidableEq, Repr

structure Pending where
  pid : Nat
  time : Nat
  signal : Nat
  deriving DecidableEq

structure Host where
  directory : Directory
  clock : Nat
  /-- The time at which everything stops. -/
  horizon : Nat
  streams : List (Nat × List Chunk)
  sources : List (Nat × Source)
  processes : List Process
  pending : List Pending
  fresh : Nat

structure Variable where
  value : Option Octets
  exported : Bool
  readOnly : Bool

structure Session where
  name : Octets
  line : Nat
  parameters : List Octets
  bindings : List (Octets × Variable)
  functions : List (Octets × Command)
  status : Nat
  handles : List (Nat × Handle)
  pid : Nat
  main : Nat
  /-- The processes that this one was started by, the nearest first. -/
  ancestors : List Nat
  jobs : List Nat
  traps : List (Nat × Octets)
  /-- Signals with a trap that came in and have not been seen to, the latest first. -/
  caught : List Nat
  depth : Nat
  loops : Nat
  /-- What the variables local to each call hid, the innermost call first. -/
  hidden : List (List (Octets × Option Variable))
  exitOnError : Bool
  unsetIsError : Bool
  noGlob : Bool
  trace : Bool
  readOnly : Bool
  /-- Whether a failure is being asked about and so ends nothing. -/
  tested : Bool
  detached : Bool
  /-- The limits of the process, by their letters and in their units; one that is absent is none. -/
  limits : List (Char × Nat)
  /-- The command of the shell that is being carried out, as messages name it. -/
  command : Option Octets
  outputStatus : Option Nat

structure State where
  host : Host
  shell : Session

inductive Flow where
  | exit (code : Nat)
  | leave (levels : Nat)
  | next (levels : Nat)
  | return (code : Nat)
  | gone (code : Nat)
  | slain (signal : Nat)
  | late
  deriving DecidableEq, Repr

abbrev Action := ExceptT Flow (StateM State)

def insert {α β : Type} [BEq α] (key : α) (value : β) : List (α × β) → List (α × β)
  | [] => [(key, value)]
  | (k, v) :: rest => if k == key then (k, value) :: rest else (k, v) :: insert key value rest

def erase {α β : Type} [BEq α] (key : α) (entries : List (α × β)) : List (α × β) :=
  entries.filter fun entry => !(entry.1 == key)

/-! Time and signals. -/

def microsecond : Nat := 1000

def millisecond : Nat := 1000000

def stepTime : Nat := 5 * microsecond

def startTime : Nat := millisecond

def modifyHost (f : Host → Host) : Action Unit := modify fun s => { s with host := f s.host }

def modifyShell (f : Session → Session) : Action Unit := modify fun s => { s with shell := f s.shell }

def stopHere : Action Unit := do
  modifyHost fun h => { h with clock := h.horizon + 1 }
  throw .late

def Host.due? (h : Host) (pid time : Nat) : Option Pending :=
  (h.pending.filter fun p => p.pid == pid && p.time ≤ time).foldl
    (fun best p => match best with
      | some b => if p.time < b.time then some p else some b
      | none => some p) none

def receive (signal : Nat) : Action Unit := do
  match (← get).shell.traps.lookup signal with
  | some [] => pure ()
  | some _ => modifyShell fun sh => { sh with caught := signal :: sh.caught }
  | none =>
    match Signal.effect signal with
    | .none => pure ()
    | .stops => stopHere
    | .ends => throw (.slain signal)

def receiveUntil (time : Nat) : Nat → Action Unit
  | 0 => pure ()
  | count + 1 => do
    let s ← get
    match s.host.due? s.shell.pid time with
    | none => pure ()
    | some p =>
      modifyHost fun h => { h with
        clock := max h.clock p.time
        pending := h.pending.erase p }
      receive p.signal
      receiveUntil time count

def waitUntil (time : Nat) : Action Unit := do
  let host := (← get).host
  let time := max host.clock time
  if !host.pending.isEmpty then receiveUntil time host.pending.length
  if host.horizon < time then stopHere
  else modifyHost fun h => { h with clock := time }

def spend (time : Nat) : Action Unit := do
  waitUntil ((← get).host.clock + time)

def freshNumber : Action Nat := do
  let n := (← get).host.fresh
  modifyHost fun h => { h with fresh := n + 1 }
  return n

/-! Descriptors. -/

def handle? (descriptor : Nat) : Action (Option Handle) :=
  return (← get).shell.handles.lookup descriptor

def setHandle (descriptor : Nat) (handle : Handle) : Action Unit :=
  modifyShell fun sh => { sh with handles := insert descriptor handle sh.handles }

def closeHandle (descriptor : Nat) : Action Unit :=
  modifyShell fun sh => { sh with handles := erase descriptor sh.handles }

def Session.streams (sh : Session) : List Nat :=
  sh.handles.filterMap fun entry => match entry.2 with
    | .stream number => some number
    | _ => none

def toOctets (bytes : List UInt8) : Octets := bytes.map fun b => Char.ofNat b.toNat

def toBytes (octets : Octets) : List UInt8 := octets.map fun c => c.toNat.toUInt8

def emit (descriptor : Nat) (octets : Octets) : Action Bool := do
  spend stepTime
  match ← handle? descriptor with
  | some (.stream number) =>
    modify fun s =>
      let chunk : Chunk := ⟨s.host.clock, s.shell.pid, octets⟩
      let earlier := (s.host.streams.lookup number).getD []
      { s with host := { s.host with streams := insert number (chunk :: earlier) s.host.streams } }
    return true
  | some (.file names) =>
    modifyHost fun h =>
      match h.directory.root.get names with
      | .ok (.file content executable) =>
        let node := Node.file (content ++ toBytes octets) executable
        { h with directory := { h.directory with root := h.directory.root.put names node } }
      | _ => h
    return true
  | some .sink => return true
  | _ => return false

def emitText (descriptor : Nat) (text : String) : Action Unit :=
  discard (emit descriptor (octetsOf text))

def openSource (source : Source) : Action Handle := do
  let number ← freshNumber
  modifyHost fun h => { h with sources := (number, source) :: h.sources }
  return .source number

def source? (descriptor : Nat) : Action (Option (Option Nat × Source)) := do
  match ← handle? descriptor with
  | some (.source number) => return ((← get).host.sources.lookup number).map fun s => (some number, s)
  | some .sink => return some (none, ⟨[], 0⟩)
  | _ => return none

def setSource (number : Option Nat) (source : Source) : Action Unit :=
  match number with
  | some n => modifyHost fun h => { h with sources := insert n source h.sources }
  | none => pure ()

def readAll (descriptor : Nat) (each : Octets → Action Unit) : Action Bool := do
  match ← source? descriptor with
  | none => return false
  | some (number, source) =>
    setSource number ⟨[], source.closing⟩
    for (time, piece) in source.pieces do
      waitUntil time
      each piece
    waitUntil source.closing
    return true

def lineOf (done : Octets) : List (Nat × Octets) → Option Nat × Octets × List (Nat × Octets)
  | [] => (none, done, [])
  | (time, piece) :: rest =>
    let start := piece.takeWhile (· != '\n')
    match piece.drop start.length with
    | [] => lineOf (done ++ start) rest
    | _ :: after => (some time, done ++ start ++ ['\n'], if after.isEmpty then rest else (time, after) :: rest)

def readLine (descriptor : Nat) : Action (Option Octets) := do
  match ← source? descriptor with
  | none => return none
  | some (number, source) =>
    let (time, line, rest) := lineOf [] source.pieces
    waitUntil (time.getD source.closing)
    setSource number ⟨rest, source.closing⟩
    return some line

/-! Messages. -/

def complain (words : Octets) : Action Unit := do
  let sh := (← get).shell
  let command := match sh.command with
    | some name => name ++ ": ".toList
    | none => []
  discard (emit 2 (sh.name ++ ": ".toList ++ decimal sh.line ++ ": ".toList ++ command ++ words ++ ['\n']))

def fail {α : Type} (words : Octets) : Action α := do
  complain words
  throw (.exit 2)

def setStatus (status : Nat) : Action Unit := modifyShell fun sh => { sh with status := status % 256 }

/-! Variables. -/

def Session.valueOf? (sh : Session) (name : Octets) : Option Octets :=
  (sh.bindings.lookup name).bind (·.value)

def assign (name value : Octets) : Action Unit := do
  let old := (← get).shell.bindings.lookup name
  if old.any (·.readOnly) then fail (name ++ ": is read only".toList)
  else
    modifyShell fun sh => { sh with
      bindings := insert name ⟨some value, old.any (·.exported), false⟩ sh.bindings }

end FlagSurvey.Shell
