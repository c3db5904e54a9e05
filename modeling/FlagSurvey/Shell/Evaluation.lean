import FlagSurvey.Machine.Basic
import FlagSurvey.Machine.Program
import FlagSurvey.Machine.Tool
import FlagSurvey.Shell.Arithmetic
import FlagSurvey.Shell.Builtin
import FlagSurvey.Shell.Reader
import FlagSurvey.Shell.Redirection

/-! Carrying out scripts. Words become fields, simple commands become functions, commands of the shell or
programs, and programs may be shells again. Every function takes a number of steps, of which each round of a
loop and each nesting takes one; where they run out, so has the time. -/
namespace FlagSurvey.Shell

open Number Machine

def outOfTime {α : Type} : Action α := do
  stopHere
  throw .late

/-! Values of parameters. -/

def allName : Octets := ['@']

def joinedName : Octets := ['*']

def Session.joined (sh : Session) : Octets :=
  let between := match sh.valueOf? "IFS".toList with
    | some separators => separators.take 1
    | none => [' ']
  between.intercalate sh.parameters

def Session.value? (sh : Session) (name : Octets) : Option Octets :=
  match name with
  | ['@'] => if sh.parameters.isEmpty then none else some ([' '].intercalate sh.parameters)
  | ['*'] => if sh.parameters.isEmpty then none else some sh.joined
  | ['#'] => some (decimal sh.parameters.length)
  | ['?'] => some (decimal sh.status)
  | ['$'] => some (decimal sh.main)
  | ['!'] => sh.jobs.getLast?.map decimal
  | ['-'] => some ((if sh.exitOnError then ['e'] else []) ++ if sh.unsetIsError then ['u'] else [])
  | _ =>
    match readNat? 10 name with
    | some 0 => some sh.name
    | some n => sh.parameters[n - 1]?
    | none => sh.valueOf? name

def valueItems (quoted : Bool) (text : Octets) : List Item :=
  if quoted then Item.ofQuoted text else text.map .loose

def Session.items (sh : Session) (name : Octets) (quoted : Bool) (value : Octets) : List Item :=
  if name == allName || (name == joinedName && !quoted) then
    ([Item.boundary].intercalate (sh.parameters.map (valueItems quoted)))
  else valueItems quoted value

def Item.loosened : Item → Item
  | .glyph ⟨c, false⟩ => .loose c
  | item => item

def withoutLineEnds (text : Octets) : Octets := (text.reverse.dropWhile (· == '\n')).reverse

/-! States of programs. -/

/-- The state in which a program begins: of the shell before it, it knows the environment alone. -/
def Session.anew (sh : Session) (name : Octets) : Session :=
  { sh with
    name
    line := 1
    parameters := []
    bindings := (sh.bindings.filter (·.2.exported)).map fun entry => (entry.1, { entry.2 with readOnly := false })
    functions := []
    status := 0
    main := sh.pid
    jobs := []
    traps := sh.traps.filter fun trap => trap.1 != 0 && trap.2.isEmpty
    caught := []
    depth := 0
    loops := 0
    hidden := []
    exitOnError := false
    unsetIsError := false
    noGlob := false
    trace := false
    readOnly := false
    tested := false
    outputStatus := none
    command := none }

def Session.folders (sh : Session) (standard : List String) : List String :=
  match sh.valueOf? "PATH".toList with
  | some path => (path.splitOn ':').map textOf
  | none => standard

def Session.withHome (sh : Session) (word : Word) : Word :=
  match word with
  | .text ('~' :: rest) false :: more =>
    match sh.valueOf? "HOME".toList with
    | some home =>
      if (rest.isEmpty && more.isEmpty) || rest.head? == some '/' then
        .text home true :: .text rest false :: more
      else word
    | none => word
  | _ => word

def State.pathOf? (s : State) (name : Octets) : Option Octets :=
  if name.contains '/' then
    if (s.host.directory.launch (textOf name)).isOk then some name else none
  else
    ((s.shell.folders []).find? fun folder =>
      (s.host.directory.launch (folder ++ "/" ++ textOf name)).isOk).map fun folder =>
        octetsOf folder ++ '/' :: name

def inQuotes (name : Octets) : Octets := ['\x27'] ++ name ++ ['\x27']

def startFault (name : Octets) (fault : PathFault) : Nat × String :=
  match fault with
  | .missing | .notFolder => (127, if name.isEmpty then "Permission denied" else "not found")
  | .nameTooLong => (127, fault.description)
  | _ => (126, fault.description)

def tested (body : Action Unit) : Action Unit := do
  let before := (← get).shell.tested
  let restore : Action Unit := modifyShell fun sh => { sh with tested := before }
  modifyShell fun sh => { sh with tested := true }
  tryCatch body fun flow => do
    restore
    throw flow
  restore

def named (name : Octets) (body : Action Unit) : Action Unit := do
  let before := (← get).shell.command
  let restore : Action Unit := modifyShell fun sh => { sh with command := before }
  modifyShell fun sh => { sh with command := some name }
  tryCatch body fun flow => do
    restore
    throw flow
  restore

def settle : Action Unit := do
  let sh := (← get).shell
  if sh.exitOnError && !sh.tested && sh.status != 0 then throw (.exit sh.status)

def withinLoop (body : Action Unit) : Action Unit := do
  let before := (← get).shell.loops
  let restore : Action Unit := modifyShell fun sh => { sh with loops := before }
  modifyShell fun sh => { sh with loops := before + 1 }
  tryCatch body fun flow => do
    restore
    throw flow
  restore

inductive Round where
  | again
  | done
  | broken (flow : Flow)

def Round.of : Except Flow Unit → Round
  | .ok _ => .again
  | .error (.next levels) => if levels ≤ 1 then .again else .broken (.next (levels - 1))
  | .error (.leave levels) => if levels ≤ 1 then .done else .broken (.leave (levels - 1))
  | .error flow => .broken flow

/-- The memory below which a program ends while it is loaded, in units of 1024 bytes. -/
def leastMemory : Nat := 544

/-- The memory below which there is no room for what a program is linked with. -/
def linkedMemory : Nat := 2688

def unlinked : String :=
  "error while loading shared libraries: libc.so.6: failed to map segment from shared object"

/-- The nesting of calls that a shell allows. -/
def deepest : Nat := 1000

def optionWords : List Octets → List (Char × Octets) × List Octets
  | [] => ([], [])
  | word :: rest =>
    match word with
    | ['-'] | ['-', '-'] => ([], rest)
    | sign :: 'o' :: [] =>
      match rest with
      | name :: rest =>
        if sign != '-' && sign != '+' then ([], word :: name :: rest)
        else
          let (options, last) := optionWords rest
          ((sign, name) :: options, last)
      | [] => ([], [word])
    | sign :: first :: letters =>
      if sign != '-' && sign != '+' then ([], word :: rest)
      else
        let (options, last) := optionWords rest
        ((first :: letters).map (fun letter => (sign, [letter])) ++ options, last)
    | _ => ([], word :: rest)

def Action.runOn (action : Action Unit) (s : State) : Except Flow Unit × State :=
  (ExceptT.run action).run s

mutual

def items : Nat → Word → Action (List Item)
  | 0, _ => outOfTime
  | steps + 1, word =>
    match word with
    | [] => return []
    | part :: rest => do
      let first ← partItems steps part
      let more ← items steps rest
      return first ++ more

def partItems : Nat → Part → Action (List Item)
  | 0, _ => outOfTime
  | steps + 1, part => do
    match part with
    | .text value quoted =>
      return if quoted then Item.ofQuoted value else value.map fun c => .glyph ⟨c, false⟩
    | .output body quoted => return valueItems quoted (← outputOf steps body)
    | .number expression quoted =>
      let text ← plain steps expression
      let sh := (← get).shell
      match Arithmetic.evaluate (fun name => (sh.value? name).getD []) text with
      | .error fault => fail (fault.message text)
      | .ok (value, assigned) =>
        for (name, v) in assigned do assign name (decimalInt v.toInt)
        return valueItems quoted (decimalInt value.toInt)
    | .parameter name operation argument quoted =>
      let sh := (← get).shell
      let value := sh.value? name
      let given := value.getD []
      let isMissing (ifEmpty : Bool) : Bool := value.isNone || (ifEmpty && given.isEmpty)
      let ownItems : List Item :=
        if value.isNone && name == allName then [] else sh.items name quoted given
      let isRefused := value.isNone && sh.unsetIsError && name != allName && name != joinedName
      let wordItems : Action (List Item) := do
        let inner ← items steps argument
        return if quoted then .quotes :: inner else inner.map Item.loosened
      match operation with
      | .invalid => fail "Bad substitution".toList
      | .value =>
        if isRefused then fail (name ++ ": parameter not set".toList) else return ownItems
      | .length =>
        if isRefused then fail (name ++ ": parameter not set".toList)
        else
          let count := if name == allName || name == joinedName then sh.parameters.length
            else given.length
          return valueItems quoted (decimal count)
      | .orDefault ifEmpty => if isMissing ifEmpty then wordItems else return ownItems
      | .orAssign ifEmpty =>
        if isMissing ifEmpty then
          let text ← plain steps argument
          assign name text
          return valueItems quoted text
        else return ownItems
      | .orFail ifEmpty =>
        if isMissing ifEmpty then
          let text ← plain steps argument
          let words := if !argument.isEmpty then text
            else if ifEmpty then "parameter not set or null".toList
            else "parameter not set".toList
          fail (name ++ ": ".toList ++ words)
        else return ownItems
      | .unless ifEmpty => if isMissing ifEmpty then return valueItems quoted [] else wordItems
      | .cutStart longest =>
        let pattern := Item.whole (← items steps argument)
        return valueItems quoted (Pattern.cutStart longest pattern given)
      | .cutEnd longest =>
        let pattern := Item.whole (← items steps argument)
        return valueItems quoted (Pattern.cutEnd longest pattern given)

def outputOf : Nat → Command → Action Octets
  | 0, _ => outOfTime
  | steps + 1, body => do
    let stream ← freshNumber
    let process ← detour do
      setHandle 1 (.stream stream)
      finishing steps (run steps true body)
    let text ← collect stream
    let ending ← join process
    announce ending
    modifyShell fun sh => { sh with status := ending.status, outputStatus := some ending.status }
    return withoutLineEnds (text.filter (· != '\x00'))

def plain : Nat → Word → Action Octets
  | 0, _ => outOfTime
  | steps + 1, word => do
    let word := (← get).shell.withHome word
    return (Item.whole (← items steps word)).text

def fields : Nat → List Word → Action (List Octets)
  | 0, _ => outOfTime
  | steps + 1, words =>
    match words with
    | [] => return []
    | word :: rest => do
      let found ← items steps ((← get).shell.withHome word)
      let s ← get
      let cut := Item.cut (Builtin.separators s.shell) .between found
      let texts := if s.shell.noGlob then cut.map Field.text
        else cut.flatMap fun field => field.paths s.host.directory
      let more ← fields steps rest
      return texts ++ more

def redirect : Nat → List Redirection → Action Bool
  | 0, _ => outOfTime
  | steps + 1, redirections =>
    match redirections with
    | [] => return true
    | .to descriptor direction target :: rest => do
      let text ← plain steps target
      if ← redirectTo descriptor direction text then redirect steps rest else return false

/-- Carries out a body with redirections, which last no longer than it. Where another program runs in the
place of the shell there is nothing to come back to; where a redirection fails something else is done. -/
def redirected : Nat → List Redirection → Action Unit → Action Unit → Action Unit
  | 0, _, _, _ => outOfTime
  | steps + 1, redirections, otherwise, body => do
    if redirections.isEmpty then body
    else
      let handles := (← get).shell.handles
      let restore : Action Unit := modifyShell fun sh => { sh with handles }
      if ← redirect steps redirections then
        tryCatch body fun flow => do
          match flow with
          | .late | .gone _ => pure ()
          | _ => restore
          throw flow
        restore
      else
        restore
        otherwise

def assignAll : Nat → Bool → List (Octets × Word) → Action Unit
  | 0, _, _ => outOfTime
  | steps + 1, exported, assignments =>
    match assignments with
    | [] => pure ()
    | (name, word) :: rest => do
      assign name (← plain steps word)
      if exported then
        modifyShell fun sh =>
          match sh.bindings.lookup name with
          | some old => { sh with bindings := insert name { old with exported := true } sh.bindings }
          | none => sh
      assignAll steps exported rest

def assigned : Nat → List (Octets × Word) → Action Unit → Action Unit
  | 0, _, _ => outOfTime
  | steps + 1, assignments, body => do
    if assignments.isEmpty then body
    else
      let before := (← get).shell.bindings
      assignAll steps true assignments
      body
      modifyShell fun sh => { sh with
        bindings := assignments.foldl (fun bindings entry =>
          match before.lookup entry.1 with
          | some old => insert entry.1 old bindings
          | none => erase entry.1 bindings) sh.bindings }

/-- Carries out a body to its end, and what is to be done at the end of the shell. -/
def finishing : Nat → Action Unit → Action Unit
  | 0, _ => outOfTime
  | steps + 1, body => do
    let code ← tryCatch (do
        body
        return (← get).shell.status) fun flow => do
      match flow with
      | .exit code => return code
      | .return code => return code
      | .leave _ | .next _ => return (← get).shell.status
      | flow => throw flow
    setStatus code
    match (← get).shell.traps.lookup 0 with
    | none => pure ()
    | some text =>
      modifyShell fun sh => { sh with traps := erase 0 sh.traps }
      let last ← tryCatch (do
          script steps text
          return code) fun flow => do
        match flow with
        | .exit code => return code
        | flow => throw flow
      setStatus last

def attend : Nat → Action Unit
  | 0 => outOfTime
  | steps + 1 => do
    let sh := (← get).shell
    if !sh.caught.isEmpty then
      modifyShell fun sh => { sh with caught := [] }
      for signal in sh.caught.reverse do
        match sh.traps.lookup signal with
        | some text => script steps text
        | none => pure ()
      setStatus sh.status

def call : Nat → Command → List Octets → Action Unit
  | 0, _, _ => outOfTime
  | steps + 1, body, arguments => do
    let before := (← get).shell
    if deepest ≤ before.depth then
      fail ("Maximum function recursion depth (".toList ++ decimal deepest ++ ") reached".toList)
    modifyShell fun sh => { sh with
      parameters := arguments
      depth := before.depth + 1
      loops := 0
      hidden := [] :: before.hidden }
    let restore : Action Unit := modifyShell fun sh => { sh with
      parameters := before.parameters
      depth := before.depth
      loops := before.loops
      hidden := before.hidden
      bindings := (sh.hidden.headD []).foldl (fun bindings (name, old) =>
        match old with
        | some old => insert name old bindings
        | none => erase name bindings) sh.bindings }
    tryCatch (run steps false body) fun flow => do
      match flow with
      | .return code => setStatus code
      | flow =>
        restore
        throw flow
    restore

def execute : Nat → Octets → List Octets → Action Unit
  | 0, _, _ => outOfTime
  | steps + 1, name, arguments => do
    let s ← get
    match s.host.directory.launchNamed (s.shell.folders []) (textOf name) with
    | .error fault =>
      let (code, why) := startFault name fault
      complain (name ++ ": ".toList ++ why.toList)
      throw (.gone code)
    | .ok launch =>
      program steps launch name arguments
      throw (.gone (← get).shell.status)

def delegate : Nat → (Octets → Octets) → Octets → List Octets → Action Unit
  | 0, _, _, _ => outOfTime
  | steps + 1, describe, name, arguments => do
    let s ← get
    match s.host.directory.launchNamed (s.shell.folders searchPath) (textOf name) with
    | .error fault =>
      discard (Tool.complain (describe name ++ ": ".toList ++ fault.description.toList))
      throw (.gone (startFault name fault).1)
    | .ok launch => program steps launch name arguments

def program : Nat → Directory.Launch → Octets → List Octets → Action Unit
  | 0, _, _, _ => outOfTime
  | steps + 1, launch, name, arguments => do
    spend startTime
    let words := launch.words.map octetsOf ++ arguments
    let name := (launch.name.map octetsOf).getD name
    modifyShell fun sh => sh.anew name
    let memory := ((← get).shell.limits.lookup 'v').getD linkedMemory
    if memory < leastMemory then throw (.slain 11)
    if memory < linkedMemory then
      discard (Tool.complain unlinked.toList)
      throw (.gone 127)
    match launch.tool with
    | "sh" => shell steps name words
    | "env" =>
      let isBare := words.head? == some ['-', 'i']
      if isBare then modifyShell fun sh => { sh with bindings := [] }
      let words := if isBare then words.drop 1 else words
      let isSetting (word : Octets) : Bool := word.contains '='
      for word in words.takeWhile isSetting do
        let (name, value) := Builtin.assignment word
        modifyShell fun sh => { sh with bindings := insert name ⟨value, true, false⟩ sh.bindings }
      match words.dropWhile isSetting with
      | name :: arguments => delegate steps inQuotes name arguments
      | [] =>
        let lines := (← get).shell.bindings.flatMap fun entry =>
          entry.1 ++ '=' :: (entry.2.value.getD []) ++ ['\n']
        setStatus (← Tool.answer lines)
    | "nohup" =>
      match words with
      | name :: arguments => delegate steps (fun name => "failed to run command ".toList ++ inQuotes name) name arguments
      | [] => setStatus 125
    | "setsid" =>
      match words.dropWhile fun word => word.head? == some '-' with
      | name :: arguments =>
        let body : Action Unit := do
          modifyShell fun sh => { sh with detached := true }
          delegate steps ("failed to execute ".toList ++ ·) name arguments
        if (← get).shell.ancestors.isEmpty then
          discard (detour body)
          setStatus 0
        else body
      | [] => setStatus 1
    | "timeout" => limited steps words
    | tool =>
      match Tool.run? tool words with
      | some action => setStatus (← action)
      | none => setStatus 127

def limited : Nat → List Octets → Action Unit
  | 0, _ => outOfTime
  | steps + 1, words => do
    let (signal, words) := match words with
      | ['-', 's'] :: name :: rest => ((Signal.ofLongText? name).getD Signal.terminate, rest)
      | ('-' :: 's' :: name) :: rest => ((Signal.ofLongText? name).getD Signal.terminate, rest)
      | _ => (Signal.terminate, words)
    match words with
    | time :: name :: arguments =>
      match Tool.duration? time with
      | none =>
        discard (Tool.misused ("invalid time interval '".toList ++ time ++ ['\x27']))
        setStatus 125
      | some time =>
        modifyShell fun sh => { sh with detached := true }
        let process ← detour (delegate steps (fun name => "failed to run command ".toList ++ inQuotes name) name arguments)
        let s ← get
        let limit := match time with
          | some 0 | none => process.finish
          | some time => s.host.clock + time
        if limit < process.finish then
          modifyHost fun h => h.cut process.pid limit limit (.signal signal)
          waitUntil limit
          setStatus (if signal == Signal.kill then 137 else 124)
        else setStatus (← join process).status
    | _ => setStatus 125

def shell : Nat → Octets → List Octets → Action Unit
  | 0, _, _ => outOfTime
  | steps + 1, name, words => do
    let (options, rest) := optionWords words
    let complainEarly (words : Octets) : Action Unit := do
      discard (emit 2 (name ++ ": 0: ".toList ++ words ++ ['\n']))
      throw (.gone 2)
    for (sign, option) in options do
      match option with
      | [letter] =>
        if letter != 'c' && letter != 's' && !Builtin.optionLetters.contains letter then
          complainEarly (Builtin.illegalOption sign letter)
      | _ => pure ()
      modifyShell fun sh => Builtin.setOption sh (sign == '-') option
    let isCommand := options.any fun option => option.2 == ['c']
    let isInput := options.any fun option => option.2 == ['s']
    if isInput then modifyShell fun sh => { sh with parameters := rest }
    match isCommand, if isInput && !isCommand then [] else rest with
    | true, [] => complainEarly "-c requires an argument".toList
    | true, text :: rest =>
      modifyShell fun sh => { sh with name := rest.headD name, parameters := rest.drop 1 }
      finishing steps (script steps text)
    | false, [] =>
      let text ← Tool.inputText
      finishing steps (script steps text)
    | false, path :: parameters =>
      match ← Tool.fileText path with
      | .error fault => complainEarly (openFault path fault)
      | .ok text =>
        modifyShell fun sh => { sh with name := path, parameters }
        finishing steps (script steps text)

def script : Nat → Octets → Action Unit
  | 0, _ => outOfTime
  | steps + 1, text => scriptLines steps (text.count '\n') text

def scriptLines : Nat → Nat → Octets → Action Unit
  | 0, _, _ => outOfTime
  | steps + 1, lines, text => do
    match Reader.nextLine lines text with
    | .error fault =>
      modifyShell fun sh => { sh with line := fault.line lines }
      fail ("Syntax error: ".toList ++ fault.message.toList)
    | .ok none => pure ()
    | .ok (some (command, rest)) =>
      if !(← get).shell.readOnly then run steps false command
      scriptLines steps lines rest

def builtin : Nat → Octets → List Octets → List (Octets × Word) → List Redirection → Action Unit
  | 0, _, _, _, _ => outOfTime
  | steps + 1, name, arguments, assignments, redirections => do
    let body : Action Unit := do
      match String.ofList name with
      | "eval" =>
        setStatus 0
        script steps ([' '].intercalate arguments)
      | "." =>
        match arguments with
        | [] => pure ()
        | path :: _ =>
          match ← Tool.fileText path with
          | .error fault => fail (openFault path fault)
          | .ok text =>
            setStatus 0
            tryCatch (script steps text) fun flow => do
              match flow with
              | .return code => setStatus code
              | flow => throw flow
      | "command" => explicit steps arguments
      | "type" => kinds steps arguments
      | text =>
        match Builtin.run? text arguments with
        | some action => setStatus (← action)
        | none => setStatus 127
    let body := if name == "command".toList then body else named name body
    if String.ofList name == "exec" then
      assignAll steps true assignments
      if !(← redirect steps redirections) then throw (.exit 2)
      match arguments with
      | [] => setStatus 0
      | program :: arguments => named name (execute steps program arguments)
    else if Builtin.isSpecial name then
      assignAll steps false assignments
      redirected steps redirections (throw (.exit 2)) body
    else assigned steps assignments (redirected steps redirections (setStatus 2) body)

def explicit : Nat → List Octets → Action Unit
  | 0, _ => outOfTime
  | steps + 1, words => do
    match words with
    | ['-', 'v'] :: name :: _ =>
      let s ← get
      if (s.shell.functions.lookup name).isSome || Builtin.isBuiltin name ||
          Reader.reserved.contains name then
        setStatus (← Builtin.answer "command" (name ++ ['\n']))
      else
        match s.pathOf? name with
        | some path => setStatus (← Builtin.answer "command" (path ++ ['\n']))
        | none => setStatus 127
    | ['-', 'V'] :: names => kinds steps names
    | ['-', 'p'] :: rest => explicit steps rest
    | ['-', '-'] :: rest => explicit steps rest
    | name :: arguments =>
      if Builtin.isBuiltin name then builtin steps name arguments [] []
      else runChild (execute steps name arguments)
    | [] => setStatus 0

def kinds : Nat → List Octets → Action Unit
  | 0, _ => outOfTime
  | steps + 1, names =>
    match names with
    | [] => setStatus 0
    | name :: rest => do
      let s ← get
      let tell (words : String) : Action Unit :=
        discard (Builtin.answer "type" (name ++ words.toList ++ ['\n']))
      if (s.shell.functions.lookup name).isSome then tell " is a shell function"
      else if Builtin.isSpecial name then tell " is a special shell builtin"
      else if Builtin.isBuiltin name then tell " is a shell builtin"
      else if Reader.reserved.contains name then tell " is a shell keyword"
      else
        match s.pathOf? name with
        | some path => tell (" is " ++ textOf path)
        | none => tell ": not found"
      kinds steps rest
      let found := (s.shell.functions.lookup name).isSome || Builtin.isBuiltin name ||
        Reader.reserved.contains name || (s.pathOf? name).isSome
      if !found then setStatus 127

def simple : Nat → Bool → List (Octets × Word) → List Word → List Redirection → Action Unit
  | 0, _, _, _, _ => outOfTime
  | steps + 1, last, assignments, words, redirections => do
    spend stepTime
    modifyShell fun sh => { sh with outputStatus := none }
    let texts ← fields steps words
    let trace (words : List Octets) : Action Unit := do
      if (← get).shell.trace then
        discard (emit 2 ("+ ".toList ++ [' '].intercalate words ++ ['\n']))
    if !texts.isEmpty then trace texts
    match texts with
    | [] =>
      let body : Action Unit := do
        assignAll steps false assignments
        let sh := (← get).shell
        trace (assignments.map fun (name, _) => name ++ '=' :: (sh.valueOf? name).getD [])
        setStatus ((← get).shell.outputStatus.getD 0)
      redirected steps redirections (setStatus 2) body
    | name :: arguments =>
      match (← get).shell.functions.lookup name with
      | some body =>
        assigned steps assignments (redirected steps redirections (setStatus 2) (call steps body arguments))
      | none =>
        if Builtin.isBuiltin name then builtin steps name arguments assignments redirections
        else
          let inPlace := last && (← get).shell.traps.isEmpty
          let body : Action Unit := do
            assignAll steps true assignments
            execute steps name arguments
          redirected steps redirections (setStatus 2) (if inPlace then body else runChild body)

def sequence : Nat → Bool → List (Bool × Command) → Action Unit
  | 0, _, _ => outOfTime
  | steps + 1, last, commands =>
    match commands with
    | [] => pure ()
    | (inBackground, command) :: rest => do
      if inBackground then start steps command
      else run steps (last && rest.isEmpty) command
      sequence steps last rest

def start : Nat → Command → Action Unit
  | 0, _ => outOfTime
  | steps + 1, command => do
    let process ← detour do
      setHandle 0 .sink
      let (body, redirections) := match command with
        | .redirected body redirections => (body, redirections)
        | _ => (command, [])
      let body := match body with
        | .subshell inner => inner
        | _ => body
      if ← redirect steps redirections then finishing steps (run steps true body)
      else throw (.gone 2)
    modifyShell fun sh => { sh with jobs := sh.jobs ++ [process.pid], status := 0 }

def connected : Nat → Option Handle → List Command → Action (List Process)
  | 0, _, _ => outOfTime
  | steps + 1, input, stages => do
    let setInput : Action Unit := match input with
      | some handle => setHandle 0 handle
      | none => pure ()
    match stages with
    | [] => return []
    | [command] =>
      let process ← detour do
        setInput
        finishing steps (run steps true command)
      return [process]
    | command :: rest =>
      let stream ← freshNumber
      let process ← detour do
        setInput
        setHandle 1 (.stream stream)
        finishing steps (run steps true command)
      let handle ← openSource (← pipeSource stream)
      let others ← connected steps (some handle) rest
      let process ← match others with
        | reader :: _ => breakPipe stream process reader.finish
        | [] => pure process
      modifyHost fun h => { h with streams := erase stream h.streams }
      return process :: others

def run : Nat → Bool → Command → Action Unit
  | 0, _, _ => outOfTime
  | steps + 1, last, command => do
    carry steps last command
    attend steps

def carry : Nat → Bool → Command → Action Unit
  | 0, _, _ => outOfTime
  | steps + 1, last, command => do
    match command with
    | .simple line assignments words redirections =>
      modifyShell fun sh => { sh with line }
      simple steps last assignments words redirections
      settle
    | .redirected (.subshell body) redirections =>
      within steps last redirections body
      settle
    | .redirected body redirections =>
      redirected steps redirections (setStatus 2) (run steps false body)
      settle
    | .negated body =>
      tested (run steps false body)
      setStatus (if (← get).shell.status == 0 then 1 else 0)
    | .pipeline stages =>
      let processes ← connected steps none stages
      waitUntil (processes.foldl (fun time p => max time p.finish) 0)
      reap
      for process in processes do
        forget process.pid
        announce process.ending
      setStatus ((processes.getLast?.map (·.ending.status)).getD 0)
      settle
    | .both first second =>
      tested (run steps false first)
      if (← get).shell.status == 0 then run steps last second
    | .either first second =>
      tested (run steps false first)
      if (← get).shell.status != 0 then run steps last second
    | .list commands => sequence steps last commands
    | .choice condition consequent alternative =>
      tested (run steps false condition)
      if (← get).shell.status == 0 then run steps last consequent
      else
        match alternative with
        | some other => run steps last other
        | none => setStatus 0
    | .loop wanted condition body =>
      withinLoop (ExceptT.mk (loop steps wanted condition body 0))
    | .each name words body =>
      let texts ← match words with
        | some words => fields steps words
        | none => pure (← get).shell.parameters
      setStatus 0
      withinLoop (ExceptT.mk (rounds steps name body texts))
    | .cases subject arms =>
      let text ← plain steps subject
      setStatus 0
      match ← arm steps text arms with
      | some body => run steps last body
      | none => pure ()
    | .subshell body =>
      within steps last [] body
      settle
    | .define name body =>
      modifyShell fun sh => { sh with functions := insert name body sh.functions, status := 0 }

def within : Nat → Bool → List Redirection → Command → Action Unit
  | 0, _, _, _ => outOfTime
  | steps + 1, last, redirections, body => do
    let inner : Action Unit := do
      if ← redirect steps redirections then finishing steps (run steps true body)
      else setStatus 2
    if last && (← get).shell.traps.isEmpty then
      inner
      throw (.gone (← get).shell.status)
    else runChild inner

def arm : Nat → Octets → List (List Word × Command) → Action (Option Command)
  | 0, _, _ => outOfTime
  | steps + 1, text, arms =>
    match arms with
    | [] => return none
    | (patterns, body) :: rest => do
      if ← takesAny steps text patterns then return some body else arm steps text rest

def takesAny : Nat → Octets → List Word → Action Bool
  | 0, _, _ => outOfTime
  | steps + 1, text, patterns =>
    match patterns with
    | [] => return false
    | word :: rest => do
      let pattern := Item.whole (← items steps word)
      if Pattern.takes pattern text then return true else takesAny steps text rest

def loop : Nat → Bool → Command → Command → Nat → State → Except Flow Unit × State
  | 0, _, _, _, _, s => (.error .late, s)
  | steps + 1, wanted, condition, body, status, s =>
    match Action.runOn (tested (run steps false condition)) s with
    | (.error flow, s) =>
      match Round.of (.error flow) with
      | .again => loop steps wanted condition body status s
      | .done => (.ok (), { s with shell := { s.shell with status := 0 } })
      | .broken flow => (.error flow, s)
    | (.ok _, s) =>
      if (s.shell.status == 0) != wanted then
        (.ok (), { s with shell := { s.shell with status := status } })
      else
        match Action.runOn (run steps false body) s with
        | (result, s) =>
          match Round.of result with
          | .again => loop steps wanted condition body s.shell.status s
          | .done => (.ok (), { s with shell := { s.shell with status := 0 } })
          | .broken flow => (.error flow, s)

def rounds : Nat → Octets → Command → List Octets → State → Except Flow Unit × State
  | 0, _, _, _, s => (.error .late, s)
  | steps + 1, name, body, texts, s =>
    match texts with
    | [] => (.ok (), s)
    | text :: rest =>
      match Action.runOn (do assign name text; run steps false body) s with
      | (result, s) =>
        match Round.of result with
        | .again => rounds steps name body rest s
        | .done => (.ok (), { s with shell := { s.shell with status := 0 } })
        | .broken flow => (.error flow, s)

end

end FlagSurvey.Shell
