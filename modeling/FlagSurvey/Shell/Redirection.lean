import FlagSurvey.Shell.Job

/-! Where descriptors lead: files that are opened, copies of other descriptors, texts that stand in a
script, and streams that are read back by the shell or by the next command of a pipeline. -/
namespace FlagSurvey.Shell

open Number

def createFault (path : Octets) (fault : PathFault) : Octets :=
  let why := match fault with
    | .missing | .notFolder => "Directory nonexistent"
    | other => other.description
  "cannot create ".toList ++ path ++ ": ".toList ++ why.toList

def openFault (path : Octets) (fault : PathFault) : Octets :=
  let why := match fault with
    | .missing | .notFolder => "No such file"
    | other => other.description
  "cannot open ".toList ++ path ++ ": ".toList ++ why.toList

def standardDescriptor? (path : Octets) : Option Nat :=
  match String.ofList path with
  | "/dev/stdin" => some 0
  | "/dev/stdout" => some 1
  | "/dev/stderr" => some 2
  | _ =>
    let lead := "/dev/fd/".toList
    if lead.isPrefixOf path then readNat? 10 (path.drop lead.length) else none

def copyHandle (descriptor other : Nat) : Action Bool := do
  match ← handle? other with
  | some handle =>
    setHandle descriptor handle
    return true
  | none =>
    complain (decimal other ++ ": Bad file descriptor".toList)
    return false

def openText (descriptor : Nat) (text : Octets) : Action Unit := do
  let now := (← get).host.clock
  setHandle descriptor (← openSource ⟨[(now, text)], now⟩)

def openInput (descriptor : Nat) (path : Octets) : Action Bool := do
  let directory := (← get).host.directory
  match directory.node (textOf path) with
  | .ok (.file content _) =>
    openText descriptor (toOctets content)
    return true
  | .ok .sink =>
    setHandle descriptor .sink
    return true
  | .ok _ =>
    openText descriptor []
    return true
  | .error fault =>
    complain (openFault path fault)
    return false

def openOutput (descriptor : Nat) (appending : Bool) (path : Octets) : Action Bool := do
  let directory := (← get).host.directory
  let old := if appending then (directory.read (textOf path)).toOption.getD [] else []
  match directory.write (textOf path) old with
  | .error fault =>
    complain (createFault path fault)
    return false
  | .ok written =>
    modifyHost fun h => { h with directory := written }
    match written.locate (textOf path), written.node (textOf path) with
    | .ok names, .ok (.file ..) => setHandle descriptor (.file names)
    | _, _ => setHandle descriptor .sink
    return true

def redirectTo (descriptor : Nat) (direction : Direction) (target : Octets) : Action Bool := do
  match direction with
  | .document =>
    openText descriptor target
    return true
  | .sameInput | .sameOutput =>
    if target == ['-'] then
      closeHandle descriptor
      return true
    else
      match readNat? 10 target with
      | some other => copyHandle descriptor other
      | none =>
        complain "Syntax error: Bad fd number".toList
        throw (.exit 2)
  | .input =>
    match standardDescriptor? target with
    | some other => copyHandle descriptor other
    | none => openInput descriptor target
  | .output | .append =>
    match standardDescriptor? target with
    | some other => copyHandle descriptor other
    | none => openOutput descriptor (direction == .append) target

def Host.written (h : Host) (stream : Nat) : List Chunk :=
  (((h.streams.lookup stream).getD []).reverse).mergeSort fun a b => a.time ≤ b.time

def Host.closing (h : Host) (stream : Nat) : Nat :=
  (h.processes.filter fun p => p.holds.contains stream).foldl (fun time p => max time p.finish) 0

/-- Reads back all that was written to a stream, which is then gone. -/
def collect (stream : Nat) : Action Octets := do
  waitUntil ((← get).host.closing stream)
  let chunks := (← get).host.written stream
  modifyHost fun h => { h with streams := erase stream h.streams }
  return chunks.flatMap (·.octets)

def pipeSource (stream : Nat) : Action Source := do
  let h := (← get).host
  return ⟨(h.written stream).map fun chunk => (chunk.time, chunk.octets), h.closing stream⟩

/-- Ends a process that goes on writing to a stream after its reader has ended. -/
def breakPipe (stream : Nat) (writer : Process) (readerFinish : Nat) : Action Process := do
  let h := (← get).host
  match (h.written stream).find? fun chunk => readerFinish < chunk.time with
  | some chunk =>
    if writer.finish ≤ chunk.time then return writer
    else
      modifyHost fun h =>
        h.cut writer.pid chunk.time chunk.time (.signal Signal.brokenPipe)
      return { writer with finish := chunk.time, ending := .signal Signal.brokenPipe }
  | none => return writer

end FlagSurvey.Shell
